import QueryAudit.Proofs.FiledDiagnostics
import QueryAudit.Proofs.MovedTypes
import QueryAudit.Proofs.RemarkedTrees
import QueryAudit.Proofs.ReportedCalls

/-! Checking a unit where its types lie among others. Its trees refer to the types under other ids;
everything else that is read off a tree is the same. So the same calls are settled in the same order,
and what is found at a call is the same up to the file. -/
namespace QueryAudit

variable {config : Config} {own whole : Store} {place : TypeId → TypeId} {file other : FileId}
  {text : Option String} {call : Call} {method : String}

/-! ## Trees whose types have moved -/

def Facts.retype (place : TypeId → TypeId) (facts : Facts) : Facts :=
  ⟨facts.symbol, facts.convertedType.map place⟩

def Mark.retype (place : TypeId → TypeId) (mark : Mark) : Mark :=
  ⟨mark.loc, mark.facts.retype place⟩

theorem Mark.retype_moves (place : TypeId → TypeId) : Mark.Moves place (Mark.retype place) :=
  fun _ => ⟨rfl, rfl⟩

/-- A tree whose types have moved. -/
abbrev Expr.retype (place : TypeId → TypeId) (expr : Expr) : Expr :=
  expr.remark (Mark.retype place)

abbrev Expr.retypeSlots (place : TypeId → TypeId) (slots : List (Slot Expr)) : List (Slot Expr) :=
  remarkSlots (Mark.retype place) slots

abbrev Expr.retypeChildren (place : TypeId → TypeId) (children : List Expr) : List Expr :=
  remarkChildren (Mark.retype place) children

/-- A call whose types have moved. -/
abbrev Call.retype (place : TypeId → TypeId) (call : Call) : Call :=
  call.remark (Mark.retype place)

theorem Expr.loc_retype (expr : Expr) : (expr.retype place).loc = expr.loc := by
  rw [loc, marks_remark]
  rfl

/-- A type that stays in place whenever all known types do is known: otherwise it could move
alone. -/
theorem TypeId.known_of_fixed {known : TypeId → Prop} {type : TypeId}
    (fixed : ∀ place : TypeId → TypeId, (∀ id, known id → place id = id) → place type = type) :
    known type := by
  classical
  have stays := fixed (fun id => if known id then id else ⟨id.index + 1⟩)
    fun id isKnown => if_pos isKnown
  by_cases isKnown : known type
  · exact isKnown
  · have index := congrArg TypeId.index stays
    simp only [isKnown, ↓reduceIte] at index
    omega

/-- Trees that refer to known types only: they stay as they are when other types move. -/
def Expr.Within (known : TypeId → Prop) (roots : List Expr) : Prop :=
  ∀ place, (∀ id, known id → place id = id) → retypeChildren place roots = roots

/-! ## Settling one call -/

namespace Context

/-- A moved call projects the moved body, with the type where it lies. -/
theorem Projects.retype {body : Expr} {type : TypeId}
    (projects : Projects ⟨config, .ofFacts own, other, text⟩ call method body type) :
    Projects ⟨config, .ofFacts whole, file, text⟩ (call.retype place) method (body.retype place)
      (place type) :=
  projects.remark (Mark.retype_moves place)

/-- A moved call projects nothing else. -/
theorem Projects.of_retype {there : TypeId} {bodyThere : Expr} (own : Store) (other : FileId)
    (projects : Projects ⟨config, .ofFacts whole, file, text⟩ (call.retype place) method bodyThere
      there) :
    ∃ body type, Projects ⟨config, .ofFacts own, other, text⟩ call method body type ∧
      bodyThere = body.retype place ∧ there = place type :=
  projects.of_remark (Mark.retype_moves place) own other text

/-- A call in trees that refer to known types projects a known type. -/
theorem Projects.known {known : TypeId → Prop} {roots : List Expr} {body : Expr} {type : TypeId}
    (within : Expr.Within known roots) (listed : call ∈ Expr.childCalls roots)
    (projects : Projects ⟨config, .ofFacts own, other, text⟩ call method body type) :
    known type := by
  apply TypeId.known_of_fixed
  intro place keeps
  have stay : Expr.remarkChildren (Mark.retype place) roots = roots := within place keeps
  have calls : (Expr.childCalls roots).map (Call.retype place) =
      (Expr.childCalls roots).map id := by
    rw [← Expr.childCalls_remark, stay, List.map_id]
  have fixed : call.retype place = call := List.map_inj_left.mp calls call listed
  have moved : Projects ⟨config, .ofFacts own, other, text⟩ (call.retype place) method
      (body.retype place) (place type) := projects.retype
  rw [fixed] at moved
  exact (moved.unique projects).2.2

theorem quote_retype (call : Call) :
    quote ⟨config, .ofFacts whole, file, text⟩ (call.retype place) =
      quote ⟨config, .ofFacts own, other, text⟩ call := by
  simp only [quote, Call.print_remark]
  rfl

theorem offenderMessage_move (lies : own.LiesIn whole place) (contained : own.SelfContained)
    {offender type : TypeId} (offenderKnown : own.Knows offender)
    (typeKnown : own.Knows type) :
    offenderMessage whole (place offender) (place type) = offenderMessage own offender type := by
  simp only [offenderMessage, Store.display_move lies contained offenderKnown,
    Store.display_move lies contained typeKnown, lies.apart.eq_iff]

theorem diagnose_retype (lies : own.LiesIn whole place) (contained : own.SelfContained)
    {offender type : TypeId} (offenderKnown : own.Knows offender)
    (typeKnown : own.Knows type) {body : Expr} :
    diagnose ⟨config, .ofFacts whole, file, text⟩ (call.retype place) (body.retype place)
        (place offender) (place type) =
      (diagnose ⟨config, .ofFacts own, other, text⟩ call body offender type).inFile file := by
  have message := offenderMessage_move lies contained offenderKnown typeKnown
  have quoted : quote ⟨config, .ofFacts whole, file, text⟩ (call.retype place) =
      quote ⟨config, .ofFacts own, other, text⟩ call := quote_retype call
  simp only [diagnose, quoted, Expr.loc_retype]
  simp only [Model.ofFacts, message]
  rfl

/-- What is found at a call is the same wherever its types lie, up to the file. -/
theorem finding?_retype (lies : own.LiesIn whole place) (contained : own.SelfContained)
    (known : ∀ method body type,
      Projects ⟨config, .ofFacts own, other, text⟩ call method body type →
        own.Knows type) :
    finding? ⟨config, .ofFacts whole, file, text⟩ (call.retype place) =
      (finding? ⟨config, .ofFacts own, other, text⟩ call).map (Diagnostic.inFile file) := by
  apply finding?_eq
  have finds := finds_finding? ⟨config, .ofFacts own, other, text⟩ call
  generalize finding? ⟨config, .ofFacts own, other, text⟩ call = finding at finds
  cases finds with
  | @refused method body type offender projects refused faults =>
    have typeKnown := known _ _ _ projects
    have offenderKnown := faults.known contained typeKnown
    rw [Option.map_some, ← diagnose_retype lies contained offenderKnown typeKnown]
    refine .refused projects.retype ?_ ?_
    · exact fun plain => refused
        ((Evaluability.PlainWithin.move_iff lies contained typeKnown).mp plain)
    · exact faults.move lies contained typeKnown
  | nothing carried =>
    refine .nothing fun method bodyThere there projects => ?_
    obtain ⟨body, type, projectsOwn, rfl, rfl⟩ := projects.of_retype own other
    exact (Evaluability.PlainWithin.move_iff lies contained (known _ _ _ projectsOwn)).mpr
      (carried _ _ _ projectsOwn)

end Context

/-! ## Checking a unit -/

namespace Pass

/-- A check of a unit finds the same wherever its types lie, up to the file. -/
theorem checkUnit_moved (config : Config) (unit moved : SourceUnit)
    (lies : own.LiesIn whole place) (contained : own.SelfContained)
    (within : Expr.Within own.Knows unit.roots)
    (roots : moved.roots = Expr.retypeChildren place unit.roots) (text : moved.text = unit.text) :
    (checkUnit config (.ofFacts whole) .never moved).diagnostics =
        (checkUnit config (.ofFacts own) .never unit).diagnostics.map
          (Diagnostic.inFile moved.file) ∧
      (checkUnit config (.ofFacts whole) .never moved).summary =
        (checkUnit config (.ofFacts own) .never unit).summary := by
  obtain ⟨found, summary⟩ := checkUnit_settles config (.ofFacts own) unit
  obtain ⟨foundThere, summaryThere⟩ := checkUnit_settles config (.ofFacts whole) moved
  have same : ∀ site ∈ sitesOf config unit.roots,
      Context.finding? ⟨config, .ofFacts whole, moved.file, unit.text⟩ (site.1.retype place) =
        (Context.finding? ⟨config, .ofFacts own, unit.file, unit.text⟩ site.1).map
          (Diagnostic.inFile moved.file) := by
    intro site listed
    apply Context.finding?_retype lies contained
    intro method body type projects
    exact projects.known within (List.mem_of_getElem? (mem_sitesOf.mp listed).1)
  rw [roots, sitesOf_remark, text] at foundThere summaryThere
  constructor
  · rw [foundThere, found, List.flatMap_map, List.map_flatMap]
    apply List.flatMap_congr
    intro site listed
    rw [Site.remark, same site listed]
    cases Context.finding? ⟨config, .ofFacts own, unit.file, unit.text⟩ site.1 <;> rfl
  · rw [summaryThere, summary, List.length_map, List.countP_map]
    congr 1
    apply List.countP_congr
    intro site listed
    simp only [Function.comp_apply, Site.remark, same site listed, Option.isSome_map]

end Pass
end QueryAudit
