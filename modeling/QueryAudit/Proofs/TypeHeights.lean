import Mathlib.Logic.Relation
import QueryAudit.Types.Evaluability

/-! The height of a type, read off the store alone. A type has a height exactly when unfolding it
through members and elements ends everywhere in an enumeration, a transportable scalar or an
empty record; no memory, path or limit takes part in the definition. A type that contains itself
has none. -/
namespace QueryAudit.Evaluability

variable {store : Store} {type inner : TypeId} {height other limit : Nat}

/-- The types that a type is made of. Arguments of a named type are not parts of its data. -/
inductive Part (store : Store) : TypeId → TypeId → Prop where
  | member {type : TypeId} {members : List Member} {member : Member}
      (held : store.kind? type = some (.anonymous members)) (listed : member ∈ members) :
      Part store type member.type
  | element {type element : TypeId} {rank : Nat}
      (held : store.kind? type = some (.array element rank)) : Part store type element

/-- Going inwards any number of times, the type itself included. -/
abbrev Reaches (store : Store) : TypeId → TypeId → Prop :=
  Relation.ReflTransGen (Part store)

/-- Going inwards at least once. -/
abbrev Contains (store : Store) : TypeId → TypeId → Prop :=
  Relation.TransGen (Part store)

/-- One more than the greatest height of a member, and zero without members. -/
def tallest (heights : TypeId → Nat) (members : List Member) : Nat :=
  members.foldr (fun member rest => max (heights member.type + 1) rest) 0

/-- A finite type over carried leaves, with its deepest nesting. -/
inductive HasHeight (store : Store) : TypeId → Nat → Prop where
  | enumeration {type : TypeId} {name : String} {underlying : Scalar}
      (held : store.kind? type = some (.enumeration name underlying)) : HasHeight store type 0
  | scalar {type : TypeId} {scalar : Scalar} (held : store.kind? type = some (.scalar scalar))
      (transportable : scalar.isTransportable = true) : HasHeight store type 0
  | record {type : TypeId} {members : List Member} {heights : TypeId → Nat}
      (held : store.kind? type = some (.anonymous members))
      (below : ∀ member ∈ members, HasHeight store member.type (heights member.type)) :
      HasHeight store type (tallest heights members)
  | array {type element : TypeId} {rank height : Nat}
      (held : store.kind? type = some (.array element rank))
      (below : HasHeight store element height) : HasHeight store type (height + 1)

/-- Plain data no deeper than a limit. -/
def PlainWithin (store : Store) (limit : Nat) (type : TypeId) : Prop :=
  ∃ height ≤ limit, HasHeight store type height

theorem lt_tallest {heights : TypeId → Nat} {members : List Member} {member : Member}
    (listed : member ∈ members) : heights member.type < tallest heights members := by
  induction members with
  | nil => cases listed
  | cons head rest ih =>
    simp only [tallest, List.foldr_cons] at ih ⊢
    rcases List.mem_cons.mp listed with rfl | listed
    · omega
    · have := ih listed
      omega

theorem tallest_le {heights : TypeId → Nat} {members : List Member}
    (bounded : ∀ member ∈ members, heights member.type < limit) :
    tallest heights members ≤ limit := by
  induction members with
  | nil => exact Nat.zero_le _
  | cons head rest ih =>
    have first := bounded head List.mem_cons_self
    have others := ih fun member listed => bounded member (List.mem_cons_of_mem _ listed)
    simp only [tallest, List.foldr_cons] at others ⊢
    omega

theorem tallest_congr {heights others : TypeId → Nat} {members : List Member}
    (same : ∀ member ∈ members, heights member.type = others member.type) :
    tallest heights members = tallest others members := by
  induction members with
  | nil => rfl
  | cons head rest ih =>
    have restSame := ih fun member listed => same member (List.mem_cons_of_mem _ listed)
    simp only [tallest, List.foldr_cons] at restSame ⊢
    rw [same head List.mem_cons_self, restSame]

namespace HasHeight

/-- A type has one height at most. -/
theorem unique (first : HasHeight store type height) (second : HasHeight store type other) :
    height = other := by
  induction first generalizing other with
  | enumeration held => cases second <;> simp_all
  | scalar held transportable => cases second <;> simp_all
  | @record type members heights held below ih =>
    cases second with
    | enumeration again | scalar again | array again => simp_all
    | @record _ _ others again belowAgain =>
      cases held.symm.trans again
      exact tallest_congr fun member listed => ih member listed (belowAgain member listed)
  | @array type element rank height held below ih =>
    cases second with
    | enumeration again | scalar again | record again => simp_all
    | array again belowAgain =>
      cases held.symm.trans again
      rw [ih belowAgain]

/-- Everything that a type with a height is made of is less high. -/
theorem part (high : HasHeight store type height) (part : Part store type inner) :
    ∃ lower < height, HasHeight store inner lower := by
  cases part with
  | member held listed =>
    cases high with
    | enumeration again | scalar again | array again => simp_all
    | @record _ _ heights again below =>
      cases held.symm.trans again
      exact ⟨heights _, lt_tallest listed, below _ listed⟩
  | element held =>
    cases high with
    | enumeration again | scalar again | record again => simp_all
    | array again below =>
      cases held.symm.trans again
      exact ⟨_, Nat.lt_succ_self _, below⟩

theorem contained (high : HasHeight store type height) (contains : Contains store type inner) :
    ∃ lower < height, HasHeight store inner lower := by
  induction contains with
  | single step => exact high.part step
  | tail _ step ih =>
    obtain ⟨lower, less, highInside⟩ := ih
    obtain ⟨lowest, lesser, found⟩ := highInside.part step
    exact ⟨lowest, Nat.lt_trans lesser less, found⟩

/-- A type with a height does not contain itself. -/
theorem acyclic (high : HasHeight store type height) : ¬ Contains store type type := by
  intro contains
  obtain ⟨lower, less, again⟩ := high.contained contains
  exact Nat.lt_irrefl _ (high.unique again ▸ less)

/-- A type that reaches a cycle has no height. -/
theorem not_of_reaches_cycle (reaches : Reaches store type inner)
    (cyclic : Contains store inner inner) : ¬ HasHeight store type height := by
  intro high
  rcases Relation.reflTransGen_iff_eq_or_transGen.mp reaches with rfl | contains
  · exact high.acyclic cyclic
  · obtain ⟨_, _, highInside⟩ := high.contained contains
    exact highInside.acyclic cyclic

end HasHeight

namespace PlainWithin

/-- What plain data is made of is plain data. -/
theorem part (plain : PlainWithin store limit type) (part : Part store type inner) :
    PlainWithin store limit inner := by
  obtain ⟨height, within, high⟩ := plain
  obtain ⟨lower, less, highInside⟩ := high.part part
  exact ⟨lower, by omega, highInside⟩

/-- A greater limit lets more pass. -/
theorem mono (plain : PlainWithin store limit type) (within : limit ≤ other) :
    PlainWithin store other type := by
  obtain ⟨height, low, high⟩ := plain
  exact ⟨height, Nat.le_trans low within, high⟩

end PlainWithin

end QueryAudit.Evaluability
