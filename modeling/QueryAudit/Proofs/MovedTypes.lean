import Mathlib.Data.List.Basic
import Mathlib.Logic.Function.Basic
import QueryAudit.Proofs.BlamedTypes
import QueryAudit.Types.Store

/-! Types that lie in a larger store under other ids. What a type is made of, its height, the type
that an explanation blames and the text that shows it are the same wherever the types lie, as
long as they refer to each other only and all of them are defined. -/
namespace QueryAudit

/-- A member whose type has moved. -/
def Member.move (place : TypeId → TypeId) (member : Member) : Member :=
  ⟨member.name, place member.type⟩

namespace Kind

/-- A kind whose parts have moved. -/
def move (place : TypeId → TypeId) : Kind → Kind
  | scalar own => scalar own
  | enumeration name underlying => enumeration name underlying
  | anonymous members => anonymous (members.map (Member.move place))
  | array element rank => array (place element) rank
  | named name arguments => named name (arguments.map place)
  | placeholder => placeholder

/-- The types that a kind refers to. -/
def references : Kind → List TypeId
  | anonymous members => members.map Member.type
  | array element _ => [element]
  | named _ arguments => arguments
  | scalar _ | enumeration .. | placeholder => []

end Kind

namespace Store

/-- The store has a type under the id, defined or not. -/
abbrev Knows (store : Store) (id : TypeId) : Prop :=
  (store.kind? id).isSome = true

/-- Every type of the store is defined, and refers only to types of the store. -/
structure SelfContained (store : Store) : Prop where
  defined : ∀ id, store.kind? id ≠ some .placeholder
  closed : ∀ id kind, store.kind? id = some kind →
    ∀ inner ∈ kind.references, store.Knows inner

/-- Every type of `own` lies in `whole`, under the id that `place` gives. -/
structure LiesIn (own whole : Store) (place : TypeId → TypeId) : Prop where
  apart : Function.Injective place
  held : ∀ id kind, own.kind? id = some kind → whole.kind? (place id) = some (kind.move place)

variable {own whole : Store} {place : TypeId → TypeId} {id : TypeId}

theorem LiesIn.origin (lies : own.LiesIn whole place) (known : own.Knows id)
    {kind : Kind} (held : whole.kind? (place id) = some kind) :
    ∃ origin, own.kind? id = some origin ∧ origin.move place = kind := by
  obtain ⟨origin, heldOwn⟩ := Option.isSome_iff_exists.mp known
  exact ⟨origin, heldOwn, Option.some.inj ((lies.held id origin heldOwn).symm.trans held)⟩

/-- A type is shown by the same text wherever it lies. -/
theorem displayTo_move (lies : own.LiesIn whole place) (contained : own.SelfContained)
    (levels : Nat) (known : own.Knows id) :
    whole.displayTo levels (place id) = own.displayTo levels id := by
  induction levels generalizing id with
  | zero => rfl
  | succ levels ih =>
    obtain ⟨kind, held⟩ := Option.isSome_iff_exists.mp known
    have below : ∀ inner ∈ kind.references,
        whole.displayTo levels (place inner) = own.displayTo levels inner :=
      fun inner referred => ih (contained.closed id kind held inner referred)
    simp only [displayTo, lies.held id kind held, held]
    cases kind with
    | scalar | enumeration => rfl
    | anonymous members =>
      have shown : (members.map (Member.move place)).map (fun member =>
          member.name ++ ": " ++ whole.displayTo levels member.type) =
          members.map fun member => member.name ++ ": " ++ own.displayTo levels member.type := by
        rw [List.map_map]
        apply List.map_congr_left
        intro member listed
        simp only [Function.comp_apply, Member.move]
        rw [below member.type (List.mem_map_of_mem listed)]
      simp only [Kind.move, shown]
    | array element rank =>
      simp only [Kind.move]
      rw [below element (List.mem_singleton.mpr rfl)]
    | named name arguments =>
      cases arguments with
      | nil => rfl
      | cons first rest =>
        have shown : ((first :: rest).map place).map (whole.displayTo levels) =
            (first :: rest).map (own.displayTo levels) := by
          rw [List.map_map]
          exact List.map_congr_left below
        simp only [Kind.move, List.map_cons] at shown ⊢
        rw [shown]
    | placeholder => exact absurd held (contained.defined id)

theorem display_move (lies : own.LiesIn whole place) (contained : own.SelfContained)
    (known : own.Knows id) : whole.display (place id) = own.display id :=
  displayTo_move lies contained _ known

end Store

namespace Evaluability

variable {own whole : Store} {place : TypeId → TypeId} {type next found : TypeId}
  {height limit steps : Nat} {members : List Member} {visited : List TypeId}

theorem Part.referred (part : Part own type next) :
    ∃ kind, own.kind? type = some kind ∧ next ∈ kind.references := by
  cases part with
  | member held listed => exact ⟨_, held, List.mem_map_of_mem listed⟩
  | element held => exact ⟨_, held, List.mem_singleton.mpr rfl⟩

/-- The parts of a type of a self-contained store are types of it. -/
theorem Part.known (part : Part own type next) (contained : own.SelfContained) :
    own.Knows next := by
  obtain ⟨kind, held, referred⟩ := part.referred
  exact contained.closed type kind held next referred

theorem tallest_move {heights : TypeId → Nat} :
    tallest heights (members.map (Member.move place)) = tallest (heights ∘ place) members := by
  rw [tallest, List.foldr_map]
  rfl

/-- A height is kept when a type moves. -/
theorem HasHeight.move (lies : own.LiesIn whole place) (high : HasHeight own type height) :
    HasHeight whole (place type) height := by
  induction high with
  | enumeration held => exact .enumeration (lies.held _ _ held)
  | scalar held transportable => exact .scalar (lies.held _ _ held) transportable
  | @record type members heights held below ih =>
    have : Nonempty TypeId := ⟨type⟩
    have back : ∀ inner, Function.invFun place (place inner) = inner :=
      Function.leftInverse_invFun lies.apart
    have same : tallest heights members =
        tallest (heights ∘ Function.invFun place) (members.map (Member.move place)) := by
      rw [tallest_move]
      exact tallest_congr fun member _ => (congrArg heights (back member.type)).symm
    rw [same]
    apply HasHeight.record (lies.held _ _ held)
    intro member listed
    obtain ⟨origin, originListed, rfl⟩ := List.mem_map.mp listed
    change HasHeight whole (place origin.type) (heights (Function.invFun place (place origin.type)))
    rw [back]
    exact ih origin originListed
  | array held below ih => exact .array (lies.held _ _ held) ih

/-- A type has no height where it lies that it did not have before. -/
theorem HasHeight.of_move (lies : own.LiesIn whole place) (contained : own.SelfContained)
    (known : own.Knows type) (high : HasHeight whole (place type) height) :
    HasHeight own type height := by
  generalize there : place type = moved at high
  induction high generalizing type with
  | enumeration held =>
    subst there
    obtain ⟨origin, heldOwn, same⟩ := lies.origin known held
    cases origin <;> cases same
    exact .enumeration heldOwn
  | scalar held transportable =>
    subst there
    obtain ⟨origin, heldOwn, same⟩ := lies.origin known held
    cases origin <;> cases same
    exact .scalar heldOwn transportable
  | @record moved members heights held below ih =>
    subst there
    obtain ⟨origin, heldOwn, same⟩ := lies.origin known held
    cases origin <;> cases same
    rw [tallest_move]
    apply HasHeight.record heldOwn
    intro member listed
    exact ih (member.move place) (List.mem_map_of_mem listed)
      ((Part.member heldOwn listed).known contained) rfl
  | array held below ih =>
    subst there
    obtain ⟨origin, heldOwn, same⟩ := lies.origin known held
    cases origin <;> cases same
    exact .array heldOwn (ih ((Part.element heldOwn).known contained) rfl)

/-- Plain data is plain data wherever it lies. -/
theorem PlainWithin.move_iff (lies : own.LiesIn whole place) (contained : own.SelfContained)
    (known : own.Knows type) :
    PlainWithin whole limit (place type) ↔ PlainWithin own limit type := by
  constructor
  · rintro ⟨height, within, high⟩
    exact ⟨height, within, high.of_move lies contained known⟩
  · rintro ⟨height, within, high⟩
    exact ⟨height, within, high.move lies⟩

theorem FirstRefused.move (lies : own.LiesIn whole place) (contained : own.SelfContained)
    {answer : Option TypeId}
    (known : ∀ member ∈ members, own.Knows member.type)
    (first : FirstRefused own limit members answer) :
    FirstRefused whole limit (members.map (Member.move place)) (answer.map place) := by
  induction first with
  | none => exact .none
  | @here head rest refused =>
    exact .here fun plain => refused
      ((PlainWithin.move_iff lies contained (known head List.mem_cons_self)).mp plain)
  | @later head rest found plain first ih =>
    refine .later ?_ (ih fun member listed => known member (List.mem_cons_of_mem _ listed))
    exact (PlainWithin.move_iff lies contained (known head List.mem_cons_self)).mpr plain

theorem Blames.move (lies : own.LiesIn whole place) (contained : own.SelfContained)
    (step : Blames own limit type next) : Blames whole limit (place type) (place next) := by
  cases step with
  | member held first =>
    exact .member (lies.held _ _ held)
      (first.move lies contained fun member listed => (Part.member held listed).known contained)
  | element held => exact .element (lies.held _ _ held)

/-- A step inwards where a type lies is a step that the type had before. -/
theorem Blames.of_move (lies : own.LiesIn whole place) (contained : own.SelfContained)
    (known : own.Knows type) {there : TypeId}
    (step : Blames whole limit (place type) there) : ∃ next, Blames own limit type next := by
  cases step with
  | member held first =>
    obtain ⟨origin, heldOwn, same⟩ := lies.origin known held
    cases origin <;> cases same
    obtain ⟨answer, firstOwn⟩ := FirstRefused.exists_answer own limit _
    have moved := firstOwn.move lies contained fun member listed =>
      (Part.member heldOwn listed).known contained
    cases answer with
    | none => cases first.unique moved
    | some next => exact ⟨next, .member heldOwn firstOwn⟩
  | element held =>
    obtain ⟨origin, heldOwn, same⟩ := lies.origin known held
    cases origin <;> cases same
    exact ⟨_, .element heldOwn⟩

/-- An explanation makes the same walk wherever a type lies. -/
theorem Walk.move (lies : own.LiesIn whole place) (contained : own.SelfContained)
    (known : own.Knows type) (walk : Walk own limit steps visited type found) :
    Walk whole limit steps (visited.map place) (place type) (place found) := by
  have met : ∀ {visited : List TypeId} {current : TypeId},
      place current ∈ visited.map place ↔ current ∈ visited :=
    List.mem_map_of_injective lies.apart
  induction walk with
  | spent => exact .spent
  | again seen => exact .again (met.mpr seen)
  | stuck fresh last =>
    refine .stuck (fun seen => fresh (met.mp seen)) fun there step => ?_
    obtain ⟨next, stepOwn⟩ := step.of_move lies contained known
    exact last next stepOwn
  | onward fresh step rest ih =>
    exact .onward (fun seen => fresh (met.mp seen)) (step.move lies contained)
      (ih (step.part.known contained))

theorem Walk.known (walk : Walk own limit steps visited type found)
    (contained : own.SelfContained) (known : own.Knows type) :
    own.Knows found := by
  induction walk with
  | spent | again | stuck => exact known
  | onward _ step _ ih => exact ih (step.part.known contained)

end Evaluability
end QueryAudit
