import Mathlib.Data.List.Forall2
import Mathlib.Data.List.Permutation
import Mathlib.Tactic.IntervalCases
import QueryAudit.Proofs.MovedTypes
import QueryAudit.Proofs.StoreHistories

/-! What the text of a type depends on. The text shows the type on level zero and all that is
referred to down to level eight, so two types with the same unfolding down to that level are shown
alike, whatever lies deeper and however the graphs around them are folded. A store that changes only
adds slots and fills reserved ones; so a text in which every slot is defined stays as it is. -/
namespace QueryAudit.Store

variable {store other later : Store} {id twin inner next : TypeId} {levels last : Nat}
  {related : TypeId → TypeId → Prop}

/-! ## Unfoldings -/

/-- What stands under two ids agrees on one level, and what is referred to is related. An id without
a definition stands for nothing but itself. -/
inductive AgreeOnce (related : TypeId → TypeId → Prop) (id twin : TypeId) :
    Option Kind → Option Kind → Prop where
  | unknown (same : id = twin) : AgreeOnce related id twin none none
  | placeholder (same : id = twin) :
      AgreeOnce related id twin (some .placeholder) (some .placeholder)
  | scalar (scalar : Scalar) : AgreeOnce related id twin (some (.scalar scalar)) (some (.scalar scalar))
  | enumeration (name : String) (underlying otherUnderlying : Scalar) :
      AgreeOnce related id twin (some (.enumeration name underlying))
        (some (.enumeration name otherUnderlying))
  | anonymous {members others : List Member}
      (inside : List.Forall₂
        (fun member other => member.name = other.name ∧ related member.type other.type)
        members others) :
      AgreeOnce related id twin (some (.anonymous members)) (some (.anonymous others))
  | array {element otherElement : TypeId} {rank otherRank : Nat}
      (ranks : max rank 1 = max otherRank 1) (inside : related element otherElement) :
      AgreeOnce related id twin (some (.array element rank)) (some (.array otherElement otherRank))
  | named (name : String) {arguments others : List TypeId}
      (inside : List.Forall₂ related arguments others) :
      AgreeOnce related id twin (some (.named name arguments)) (some (.named name others))

/-- The unfoldings of two types, each in its own store, agree from level zero down to a last
level. -/
def AgreeTo (store other : Store) : (last : Nat) → TypeId → TypeId → Prop
  | 0, id, twin => AgreeOnce (fun _ _ => True) id twin (store.kind? id) (other.kind? twin)
  | last + 1, id, twin =>
    AgreeOnce (AgreeTo store other last) id twin (store.kind? id) (other.kind? twin)

theorem map_eq_of_forall₂ {α β γ : Type} {related : α → β → Prop} {items : List α}
    {others : List β} {first : α → γ} {second : β → γ} (pairwise : List.Forall₂ related items others)
    (same : ∀ item other, related item other → first item = second other) :
    items.map first = others.map second := by
  have equal : List.Forall₂ Eq (items.map first) (others.map second) := List.rel_map same pairwise
  rwa [List.forall₂_eq_eq_eq] at equal

/-- One level is written alike when what is referred to is. -/
theorem displayTo_eq_of_once
    (agree : AgreeOnce related id twin (store.kind? id) (other.kind? twin))
    (below : ∀ inner otherInner, related inner otherInner →
      store.displayTo levels inner = other.displayTo levels otherInner) :
    store.displayTo (levels + 1) id = other.displayTo (levels + 1) twin := by
  simp only [displayTo]
  generalize store.kind? id = kind at agree ⊢
  generalize other.kind? twin = otherKind at agree ⊢
  cases agree with
  | unknown same | placeholder same => rw [same]
  | scalar | enumeration => rfl
  | @anonymous members others inside =>
    have shown : members.map (fun member =>
        member.name ++ ": " ++ store.displayTo levels member.type) =
        others.map fun member => member.name ++ ": " ++ other.displayTo levels member.type := by
      apply map_eq_of_forall₂ inside
      rintro member twin ⟨named, alike⟩
      rw [named, below _ _ alike]
    simp only [shown]
  | @array element otherElement rank otherRank ranks inside =>
    have commas : rank - 1 = otherRank - 1 := by omega
    simp only [below _ _ inside, commas]
  | @named name arguments others inside =>
    have shown : arguments.map (store.displayTo levels) = others.map (other.displayTo levels) :=
      map_eq_of_forall₂ inside below
    cases inside with
    | nil => rfl
    | cons => simp only [shown]

/-- Unfoldings that agree down to a level are written alike down to that level. -/
theorem displayTo_eq_of_agree (agree : AgreeTo store other last id twin) :
    store.displayTo (last + 1) id = other.displayTo (last + 1) twin := by
  induction last generalizing id twin with
  | zero => exact displayTo_eq_of_once agree fun _ _ _ => rfl
  | succ last ih => exact displayTo_eq_of_once agree fun _ _ inside => ih inside

/-! ## Changes of a store -/

/-- A type that is reached through members, elements and arguments on a level up to the last one. -/
inductive ReachedWithin (store : Store) : (last : Nat) → TypeId → TypeId → Prop where
  | here {last : Nat} {id : TypeId} : ReachedWithin store last id id
  | deeper {last : Nat} {id next inner : TypeId} {kind : Kind} (held : store.kind? id = some kind)
      (referred : next ∈ kind.references) (inside : ReachedWithin store last next inner) :
      ReachedWithin store (last + 1) id inner

/-- The id has a slot, and the slot is not merely reserved. -/
def Defines (store : Store) (id : TypeId) : Prop :=
  ∃ kind, store.kind? id = some kind ∧ kind ≠ .placeholder

/-- A kind that stands in both stores agrees with itself, when what it refers to does. -/
theorem agreeOnce_self {kind : Kind} (solid : kind ≠ .placeholder)
    (inside : ∀ inner ∈ kind.references, related inner inner) :
    AgreeOnce related id id (some kind) (some kind) := by
  cases kind with
  | scalar own => exact .scalar own
  | enumeration name underlying => exact .enumeration name underlying underlying
  | anonymous members =>
    refine .anonymous (List.forall₂_same.mpr ?_)
    intro member listed
    exact ⟨rfl, inside member.type (List.mem_map_of_mem listed)⟩
  | array element rank => exact .array rfl (inside element List.mem_cons_self)
  | named name arguments => exact .named name (List.forall₂_same.mpr inside)
  | placeholder => exact absurd rfl solid

/-- In a later state of a store a type unfolds as before, down to the level to which all of it was
defined. -/
theorem Extends.agreeTo (changed : Extends store later)
    (defined : ∀ inner, ReachedWithin store last id inner → store.Defines inner) :
    AgreeTo store later last id id := by
  induction last generalizing id with
  | zero =>
    obtain ⟨kind, held, solid⟩ := defined id .here
    rw [AgreeTo, held, changed.kept id kind solid held]
    exact agreeOnce_self solid fun _ _ => trivial
  | succ last ih =>
    obtain ⟨kind, held, solid⟩ := defined id .here
    rw [AgreeTo, held, changed.kept id kind solid held]
    refine agreeOnce_self solid fun next referred => ih ?_
    intro inner reached
    exact defined inner (.deeper held referred reached)

/-- The text of a type stays the same through any operations on the store, when everything that is
reached on the levels zero to eight is defined. More generally two types, of one store or of two, are
shown by the same text when their unfoldings agree on these levels. -/
theorem display_stable (store : Store) (id : TypeId) :
    ((∀ inner, ReachedWithin store 8 id inner → store.Defines inner) →
      ∀ history, (store.performAll history).2.display id = store.display id) ∧
      ∀ other twin, AgreeTo store other 8 id twin → store.display id = other.display twin := by
  refine ⟨?_, fun other twin agree => displayTo_eq_of_agree agree⟩
  intro defined history
  have agree := (performAll_extends store history).agreeTo defined
  exact (displayTo_eq_of_agree agree).symm

/-- Nine arrays around a reserved slot, which lies one level deeper than a text goes. -/
def tower : Store :=
  (Store.empty.performAll (.reserve :: (List.range 9).map fun floor => .array ⟨19 + floor⟩)).2

/-- An array of itself. -/
def endless : Store :=
  (Store.empty.performAll [.reserve, .define ⟨19⟩ (.array ⟨19⟩ 0)]).2

theorem tower_kind? : ∀ floor < 9, tower.kind? ⟨20 + floor⟩ = some (.array ⟨19 + floor⟩ 1) := by
  intro floor within
  interval_cases floor <;> cbv

/-- The arrays are shown alike whether the slot below them is filled or not, and like the array that
never ends. -/
theorem display_stable_tower :
    ((∀ inner, ReachedWithin tower 8 ⟨28⟩ inner → tower.Defines inner) ∧
        AgreeTo tower endless 8 ⟨28⟩ ⟨19⟩) ∧
      (tower.performAll [.define ⟨19⟩ (.named "Order" [])]).2.display ⟨28⟩ = tower.display ⟨28⟩ ∧
      tower.display ⟨28⟩ = endless.display ⟨19⟩ := by
  have below (floor : Nat) : 19 + (floor + 1) = 20 + floor := by omega
  have defined : ∀ floor < 9, ∀ inner, ReachedWithin tower floor ⟨20 + floor⟩ inner →
      tower.Defines inner := by
    intro floor within inner reached
    induction floor with
    | zero =>
      cases reached with
      | here => exact ⟨_, tower_kind? 0 within, by simp⟩
    | succ floor ih =>
      cases reached with
      | here => exact ⟨_, tower_kind? (floor + 1) within, by simp⟩
      | deeper held referred inside =>
        cases (tower_kind? (floor + 1) within).symm.trans held
        cases List.mem_singleton.mp referred
        rw [below floor] at inside
        exact ih (by omega) inside
  have cycle : endless.kind? ⟨19⟩ = some (.array ⟨19⟩ 0) := by cbv
  have agree : ∀ floor < 9, AgreeTo tower endless floor ⟨20 + floor⟩ ⟨19⟩ := by
    intro floor within
    induction floor with
    | zero =>
      rw [AgreeTo, tower_kind? 0 within, cycle]
      exact .array rfl trivial
    | succ floor ih =>
      rw [AgreeTo, tower_kind? (floor + 1) within, cycle]
      rw [below floor]
      exact .array rfl (ih (by omega))
  obtain ⟨stable, alike⟩ := display_stable tower ⟨28⟩
  exact ⟨⟨defined 8 (by omega), agree 8 (by omega)⟩, stable (defined 8 (by omega)) _,
    alike endless ⟨19⟩ (agree 8 (by omega))⟩

end QueryAudit.Store
