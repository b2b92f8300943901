import Mathlib.Data.List.Permutation
import QueryAudit.Proofs.LocatedTrees
import QueryAudit.Proofs.RemarkedTrees
import QueryAudit.Proofs.ReportedCalls

/-! Quoting a call from the text of its unit against printing it. In a located tree both give the
same: a call that was written is quoted from the text at its own place, and a call that was not
written has no place and is printed. So a check of a located tree with its text says what a check
of the tree without places and text says. -/
namespace QueryAudit

variable {config : Config} {types : Store} {file other : FileId} {text otherText : Option String}
  {call left right : Call} {method : String} {body : Expr} {type : TypeId}

/-! ## Trees without places -/

/-- A mark without its place. -/
def Mark.bare (mark : Mark) : Mark :=
  mark.place {}

theorem Mark.bare_moves : Mark.Moves id Mark.bare := by
  intro mark
  rw [Option.map_id]
  exact ⟨rfl, rfl⟩

/-- A tree without places. -/
abbrev Expr.bare (expr : Expr) : Expr :=
  expr.remark Mark.bare

/-- A call without places. -/
abbrev Call.bare (call : Call) : Call :=
  call.remark Mark.bare

namespace Expr

theorem bare_unplaced (expr : Expr) : expr.unplaced.bare = expr.bare := by
  have slots (slots : List (Slot Expr))
      (same : ∀ slot ∈ slots, slot.value.unplaced.bare = slot.value.bare) :
      remarkSlots Mark.bare (unplacedSlots slots) = remarkSlots Mark.bare slots := by
    induction slots with
    | nil => rfl
    | cons slot rest ih =>
      have others := ih fun other listed => same other (List.mem_cons_of_mem _ listed)
      simp only [unplacedSlots, remarkSlots, others, same slot List.mem_cons_self]
      rfl
  induction expr with
  | anonymous marks members ih =>
    simp only [unplaced, bare, remark, slots members ih]
    rfl
  | call marks callee arguments ihCallee ihArguments =>
    simp only [unplaced, bare, remark, ihCallee, slots arguments ihArguments]
    rfl
  | cast _ _ _ ih | lambda _ _ _ ih | member _ _ _ ih | paren _ _ ih =>
    simp only [unplaced, bare, remark, ih]
    rfl
  | identifier | literal | other => rfl

/-- Without places a located tree is the tree. -/
theorem bare_locate (expr : Expr) : expr.locate.1.bare = expr.bare := by
  rw [← bare_unplaced, locate, unplaced_locateAt, bare_unplaced]

end Expr

/-! ## What is found at calls that differ in places only -/

/-- A diagnostic without its spans. Code, severity, messages and notes stay. -/
def Diagnostic.unplaced (diagnostic : Diagnostic) : Diagnostic :=
  let nowhere : Span := ⟨⟨0⟩, ⟨0, 0⟩⟩
  { diagnostic with
    primary := nowhere
    labels := diagnostic.labels.map fun label => { label with span := nowhere } }

namespace Context

/-- Places do not matter for what a call projects. -/
theorem Projects.of_bare (same : left.bare = right.bare)
    (projects : Projects ⟨config, .ofFacts types, file, text⟩ left method body type) :
    ∃ otherBody,
      Projects ⟨config, .ofFacts types, other, otherText⟩ right method otherBody type := by
  have bare : Projects ⟨config, .ofFacts types, file, text⟩ left.bare method body.bare type :=
    projects.remark Mark.bare_moves
  rw [same] at bare
  obtain ⟨otherBody, own, found, _, rfl⟩ :=
    bare.of_remark Mark.bare_moves types other otherText
  exact ⟨otherBody, found⟩

/-- Diagnostics that quote a call in the same way differ in their spans only. -/
theorem diagnose_unplaced {otherBody : Expr} {offender : TypeId}
    (quoted : quote ⟨config, .ofFacts types, file, text⟩ left =
      quote ⟨config, .ofFacts types, other, otherText⟩ right) :
    (diagnose ⟨config, .ofFacts types, file, text⟩ left body offender type).unplaced =
      (diagnose ⟨config, .ofFacts types, other, otherText⟩ right otherBody offender type).unplaced := by
  simp only [diagnose, quoted]
  rfl

/-- What is found at a call depends on the tree without places and on how the call is quoted. -/
theorem finding?_of_bare (same : left.bare = right.bare)
    (quoted : quote ⟨config, .ofFacts types, file, text⟩ left =
      quote ⟨config, .ofFacts types, other, otherText⟩ right) :
    (finding? ⟨config, .ofFacts types, file, text⟩ left).map Diagnostic.unplaced =
      (finding? ⟨config, .ofFacts types, other, otherText⟩ right).map Diagnostic.unplaced := by
  have finds := finds_finding? ⟨config, .ofFacts types, file, text⟩ left
  generalize finding? ⟨config, .ofFacts types, file, text⟩ left = finding at finds
  cases finds with
  | @refused method body type offender projects refused faults =>
    obtain ⟨otherBody, otherProjects⟩ := projects.of_bare same
    have otherFinds : Finds ⟨config, .ofFacts types, other, otherText⟩ right
        (some (diagnose ⟨config, .ofFacts types, other, otherText⟩ right otherBody offender type)) :=
      .refused otherProjects refused faults
    rw [finding?_eq otherFinds, Option.map_some, Option.map_some, diagnose_unplaced quoted]
  | nothing carried =>
    have otherFinds : Finds ⟨config, .ofFacts types, other, otherText⟩ right none := by
      refine .nothing fun method otherBody type projects => ?_
      obtain ⟨body, ownProjects⟩ := projects.of_bare same.symm
      exact carried method body type ownProjects
    rw [finding?_eq otherFinds]

end Context

/-! ## Quotes in a located tree -/

namespace Expr

variable {expr part : Expr}

theorem calls_subset_of_mem_parts (listed : part ∈ expr.parts) : part.calls ⊆ expr.calls := by
  intro call inPart
  rw [mem_calls_iff] at inPart ⊢
  exact .of_immediate (parts_subset expr listed) inPart

theorem Writes.calls_subset (writes : Writes part expr) : part.calls ⊆ expr.calls := by
  induction writes with
  | here => exact fun _ inPart => inPart
  | inside listed _ ih => exact fun _ inPart => calls_subset_of_mem_parts listed (ih inPart)

/-- A call of a tree is written, or it stands below a shape that is given by its text. -/
def Meets (call : Call) (expr : Expr) : Prop :=
  (∃ outer, Writes (.call ⟨outer, call.mark⟩ call.callee call.arguments) expr) ∨
    ∃ marks own children, Writes (.other marks own children) expr ∧ call ∈ childCalls children

theorem Meets.inside (listed : part ∈ expr.parts) (meets : Meets call part) : Meets call expr := by
  rcases meets with ⟨outer, writes⟩ | ⟨marks, own, children, writes, below⟩
  · exact .inl ⟨outer, .inside listed writes⟩
  · exact .inr ⟨marks, own, children, .inside listed writes, below⟩

theorem meets_of_holds (holds : Holds call expr) : Meets call expr := by
  induction holds with
  | here => exact .inl ⟨_, .here⟩
  | callee _ ih => exact ih.inside List.mem_cons_self
  | argument listed _ ih => exact ih.inside (List.mem_cons_of_mem _ (List.mem_map_of_mem listed))
  | anonymous listed _ ih => exact ih.inside (List.mem_map_of_mem listed)
  | cast _ ih | lambda _ ih | member _ ih | paren _ ih => exact ih.inside List.mem_cons_self
  | other listed inside =>
    exact .inr ⟨_, _, _, .here, mem_childCalls_iff.mpr ⟨_, listed, inside⟩⟩

/-- The inner node of a call is visited. -/
theorem mem_nodes_of_holds (holds : Holds call expr) : ⟨.call, call.mark⟩ ∈ expr.nodes := by
  induction holds with
  | here => simp [nodes, pair]
  | callee _ ih => simp [nodes, ih]
  | argument listed _ ih =>
    rw [nodes, slotNodes_eq]
    refine List.mem_append_right _ (List.mem_flatMap.mpr ⟨_, listed, ?_⟩)
    exact List.mem_cons_of_mem _ ih
  | anonymous listed _ ih =>
    rw [nodes, slotNodes_eq]
    refine List.mem_append_right _ (List.mem_flatMap.mpr ⟨_, listed, ?_⟩)
    exact List.mem_cons_of_mem _ ih
  | cast _ ih | lambda _ ih | member _ ih | paren _ ih =>
    rw [nodes]
    exact List.mem_append_right _ ih
  | other listed _ ih =>
    rw [nodes, childNodes_eq]
    exact List.mem_append_right _ (List.mem_flatMap.mpr ⟨_, listed, ih⟩)

/-- What stands below a shape that is given by its text is the same in the located tree. -/
theorem Writes.other_located {marks : Marks} {own : String} {children : List Expr}
    (writes : Writes (.other marks own children) expr.locate.1) :
    ∃ origin, Writes (.other origin own children) expr := by
  obtain ⟨origin, offset, originWrites, _, same⟩ := writes.located
  cases origin with
  | other originMarks originText originChildren =>
    cases same
    exact ⟨originMarks, originWrites⟩
  | _ => cases same

end Expr

/-- A call prints something. -/
theorem Call.print_size_pos (call : Call) : 0 < call.print.utf8ByteSize := by
  simp only [Call.print, Expr.print, String.utf8ByteSize_append]
  have opening : "(".utf8ByteSize = 1 := rfl
  omega

namespace Expr

variable {expr : Expr} {marks : Marks} {own : String} {children : List Expr}

/-- A written call is found in the text. -/
theorem slice?_of_writes {outer : Mark}
    (writes : Writes (.call ⟨outer, call.mark⟩ call.callee call.arguments) expr.locate.1) :
    call.mark.loc.slice? expr.locate.2 = some call.print := by
  obtain ⟨start, stands, placed⟩ := writes.placed
  have loc : call.mark.loc = .spanning start call.print := congrArg (·.inner.loc) placed
  have positive := call.print_size_pos
  have notEmpty : (Loc.spanning start call.print).isEmpty = false := by
    apply decide_eq_false
    change ¬ start + call.print.utf8ByteSize ≤ start
    omega
  rw [loc, Loc.slice?, notEmpty, locate, locateAt_text]
  exact stands

/-- A call below a shape that is given by its text has no place to be found at. -/
theorem slice?_of_below (empty : ∀ node ∈ expr.nodes, node.mark.loc.isEmpty = true)
    (writes : Writes (.other marks own children) expr.locate.1)
    (below : call ∈ childCalls children) (text : String) : call.mark.loc.slice? text = none := by
  obtain ⟨origin, originWrites⟩ := writes.other_located
  have inOrigin : call ∈ (Expr.other origin own children).calls := by
    rw [calls]
    exact below
  have holds := mem_calls_iff.mp (originWrites.calls_subset inOrigin)
  have noPlace : call.mark.loc.isEmpty = true := empty _ (mem_nodes_of_holds holds)
  rw [Loc.slice?, noPlace]
  rfl

/-- In a located tree every call is quoted as it prints. -/
theorem quote_located (empty : ∀ node ∈ expr.nodes, node.mark.loc.isEmpty = true)
    (listed : call ∈ expr.locate.1.calls) (model : Model) :
    Context.quote ⟨config, model, file, some expr.locate.2⟩ call = call.print := by
  have quoted : Context.quote ⟨config, model, file, some expr.locate.2⟩ call =
      (call.mark.loc.slice? expr.locate.2).getD call.print := rfl
  rw [quoted]
  rcases meets_of_holds (mem_calls_iff.mp listed) with ⟨outer, writes⟩ | ⟨_, _, _, writes, below⟩
  · rw [slice?_of_writes writes]
    rfl
  · rw [slice?_of_below empty writes below]
    rfl

end Expr

/-- Lists that agree in one respect give the same results, when results depend on that only. -/
theorem flatMap_eq_of_map_eq {α β γ : Type} {view : α → γ} {first second : α → List β}
    {items others : List α} (same : items.map view = others.map view)
    (agree : ∀ item ∈ items, ∀ other ∈ others, view item = view other → first item = second other) :
    items.flatMap first = others.flatMap second := by
  induction items generalizing others with
  | nil =>
    rw [List.map_nil, eq_comm, List.map_eq_nil_iff] at same
    rw [same]
    rfl
  | cons item rest ih =>
    cases others with
    | nil => cases same
    | cons other more =>
      obtain ⟨heads, tails⟩ := List.cons.inj same
      have head := agree item List.mem_cons_self other List.mem_cons_self heads
      have tail := ih tails fun inner isInner outer isOuter =>
        agree inner (List.mem_cons_of_mem _ isInner) outer (List.mem_cons_of_mem _ isOuter)
      rw [List.flatMap_cons, List.flatMap_cons, head, tail]

namespace Pass

/-- Checks of trees that differ in places only find the same up to spans, as long as both quote
every call as it prints. -/
theorem checkUnit_bare (config : Config) (types : Store) (unit plain : SourceUnit)
    (same : Expr.remarkChildren Mark.bare unit.roots = Expr.remarkChildren Mark.bare plain.roots)
    (quoted : ∀ call ∈ Expr.childCalls unit.roots,
      Context.quote ⟨config, .ofFacts types, unit.file, unit.text⟩ call = call.print)
    (plainQuoted : ∀ call ∈ Expr.childCalls plain.roots,
      Context.quote ⟨config, .ofFacts types, plain.file, plain.text⟩ call = call.print) :
    (checkUnit config (.ofFacts types) .never unit).diagnostics.map Diagnostic.unplaced =
      (checkUnit config (.ofFacts types) .never plain).diagnostics.map Diagnostic.unplaced := by
  have sites : (sitesOf config unit.roots).map (Site.remark Mark.bare) =
      (sitesOf config plain.roots).map (Site.remark Mark.bare) := by
    rw [← sitesOf_remark, same, sitesOf_remark]
  rw [(checkUnit_settles config _ unit).1, (checkUnit_settles config _ plain).1,
    List.map_flatMap, List.map_flatMap]
  apply flatMap_eq_of_map_eq sites
  intro site listed plainSite plainListed alike
  have bare : site.1.bare = plainSite.1.bare := congrArg Prod.fst alike
  have prints : site.1.print = plainSite.1.print := by
    have printed := congrArg Call.print bare
    rwa [Call.print_remark, Call.print_remark] at printed
  have inUnit : site.1 ∈ Expr.childCalls unit.roots :=
    List.mem_of_getElem? (mem_sitesOf.mp listed).1
  have inPlain : plainSite.1 ∈ Expr.childCalls plain.roots :=
    List.mem_of_getElem? (mem_sitesOf.mp plainListed).1
  have quotes : Context.quote ⟨config, .ofFacts types, unit.file, unit.text⟩ site.1 =
      Context.quote ⟨config, .ofFacts types, plain.file, plain.text⟩ plainSite.1 := by
    rw [quoted _ inUnit, plainQuoted _ inPlain, prints]
  rw [← Option.toList_map, ← Option.toList_map, Context.finding?_of_bare bare quotes]

/-- A located tree that is checked with its text is reported on in the same words as the tree
without places and text. Every call is quoted as it prints: from the text, or, below a shape that
is given by its text, because it has no place to quote from. -/
theorem checkUnit_quotes_as_printed (config : Config) (types : Store) (file : FileId) (expr : Expr)
    (empty : ∀ node ∈ expr.nodes, node.mark.loc.isEmpty = true) :
    let located := expr.locate.1
    let text := expr.locate.2
    (checkUnit config (.ofFacts types) .never ⟨file, some text, [located]⟩).diagnostics.map
          Diagnostic.unplaced =
        (checkUnit config (.ofFacts types) .never ⟨file, none, [expr]⟩).diagnostics.map
          Diagnostic.unplaced ∧
      (∀ call ∈ located.calls,
        Context.quote ⟨config, .ofFacts types, file, some text⟩ call = call.print) ∧
      ∀ marks own children, Expr.Writes (.other marks own children) located →
        ∀ call ∈ Expr.childCalls children, call.mark.loc.slice? text = none := by
  intro located text
  have quoted : ∀ call ∈ located.calls,
      Context.quote ⟨config, .ofFacts types, file, some text⟩ call = call.print :=
    fun call listed => Expr.quote_located empty listed _
  refine ⟨?_, quoted, ?_⟩
  · apply checkUnit_bare
    · exact congrArg (fun root => [root]) expr.bare_locate
    · intro call listed
      rw [Expr.childCalls_eq, List.flatMap_singleton] at listed
      exact quoted call listed
    · exact fun call _ => rfl
  · intro marks own children writes call below
    exact Expr.slice?_of_below empty writes below text

/-- A remote query over rows that are given by their text, with another query below it. -/
def nestedQuery : Expr :=
  let remote : Marks := ⟨{}, { facts :=
    { symbol := some (.method "Select" (some "System.Linq.Queryable")) } }⟩
  let row : Expr := .identifier ⟨{ facts := { convertedType := some ⟨19⟩ } }, {}⟩ "é"
  let projection : List (Slot Expr) := [{ value := .lambda {} ["é"] row }]
  let rows : Expr := .other {} "await Load()" [.call remote (.identifier {} "Select") projection]
  .call remote (.member {} (.paren {} rows) "Select") projection

theorem checkUnit_quotes_as_printed_nested :
    (∀ node ∈ nestedQuery.nodes, node.mark.loc.isEmpty = true) ∧
      (checkUnit .default (.ofFacts (Store.empty.named "Order").2) .never
          ⟨⟨0⟩, some nestedQuery.locate.2, [nestedQuery.locate.1]⟩).diagnostics.map (·.message) =
        ["query cannot be translated for remote evaluation: `(await Load()).Select(é => é)`",
          "query cannot be translated for remote evaluation: `Select(é => é)`"] := by
  have empty : ∀ node ∈ nestedQuery.nodes, node.mark.loc.isEmpty = true := by decide
  refine ⟨empty, ?_⟩
  have same := (checkUnit_quotes_as_printed .default (Store.empty.named "Order").2 ⟨0⟩ nestedQuery
    empty).1
  have messages := congrArg (List.map (·.message)) same
  rw [List.map_map, List.map_map] at messages
  have plain : (checkUnit .default (.ofFacts (Store.empty.named "Order").2) .never
      ⟨⟨0⟩, none, [nestedQuery]⟩).diagnostics.map (·.message) =
        ["query cannot be translated for remote evaluation: `(await Load()).Select(é => é)`",
          "query cannot be translated for remote evaluation: `Select(é => é)`"] := by
    cbv
  exact messages.trans plain

end Pass
end QueryAudit
