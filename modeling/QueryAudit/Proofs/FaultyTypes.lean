import QueryAudit.Proofs.AlikeTypes
import QueryAudit.Proofs.BoundedQuestions

/-! Types that no limit makes plain data, and what a memory holds between questions. A type without a
height reaches one that is not carried and has no parts, or one that contains itself; these are the
refusals that are remembered. A type is entered before its parts are measured and left behind them,
also where a part was cut off, refused or found cyclic; so between two questions no type is being
unfolded. -/
namespace QueryAudit.Evaluability

variable {store : Store} {limit levels height : Nat} {type inner : TypeId} {path : List TypeId}

/-- A type reaches one that is not carried and has no parts, or one that contains itself. -/
def Faulty (store : Store) (type : TypeId) : Prop :=
  ∃ inner, Reaches store type inner ∧ (Foreign store inner ∨ Contains store inner inner)

theorem Foreign.no_height (foreign : Foreign store type) : ¬ HasHeight store type height := by
  intro high
  cases foreign with
  | scalar | named | placeholder | unknown => cases high <;> simp_all

/-- A type without a height is not carried itself, or one of its parts has no height. -/
theorem foreign_or_part (refused : ∀ height, ¬ HasHeight store type height) :
    Foreign store type ∨
      ∃ inner, Part store type inner ∧ ∀ height, ¬ HasHeight store inner height := by
  cases held : store.kind? type with
  | none => exact .inl (.unknown held)
  | some kind =>
    cases kind with
    | scalar scalar =>
      cases kept : scalar.isTransportable with
      | false => exact .inl (.scalar held kept)
      | true => exact absurd (.scalar held kept) (refused 0)
    | enumeration => exact absurd (.enumeration held) (refused 0)
    | anonymous members =>
      right
      by_contra! plain
      obtain ⟨heights, given⟩ := exists_heightOf store
      have below : ∀ member ∈ members, HasHeight store member.type (heights member.type) := by
        intro member listed
        obtain ⟨height, high⟩ := plain member.type (.member held listed)
        rwa [given _ _ high]
      exact refused _ (.record held below)
    | array element rank =>
      refine .inr ⟨element, .element held, fun height high => ?_⟩
      exact refused _ (.array held high)
    | named => exact .inl (.named held)
    | placeholder => exact .inl (.placeholder held)

/-- Going inwards through types without a height ends: all but the last are different slots, and
there are no more than `spare` besides those on the path. -/
theorem faulty_of_unfolding (spare : Nat) (room : store.size < path.length + spare)
    (unfolding : Unfolding store path type) (refused : ∀ height, ¬ HasHeight store type height) :
    Faulty store type := by
  induction spare generalizing path type with
  | zero =>
    have filled := length_le_size unfolding.once unfolding.held
    omega
  | succ spare ih =>
    by_cases seen : type ∈ path
    · exact ⟨type, .refl, .inr (unfolding.inside type seen)⟩
    · obtain foreign | ⟨inner, part, refusedInside⟩ := foreign_or_part refused
      · exact ⟨type, .refl, .inl foreign⟩
      · have longer : store.size < (type :: path).length + spare := by
          rw [List.length_cons]
          omega
        obtain ⟨last, reaches, fault⟩ := ih longer (unfolding.deeper seen part) refusedInside
        exact ⟨last, .head part reaches, fault⟩

theorem faulty_iff : Faulty store type ↔ ∀ height, ¬ HasHeight store type height := by
  constructor
  · rintro ⟨inner, reaches, foreign | cyclic⟩ height
    · intro high
      rcases Relation.reflTransGen_iff_eq_or_transGen.mp reaches with rfl | contains
      · exact foreign.no_height high
      · obtain ⟨_, _, highInside⟩ := high.contained contains
        exact foreign.no_height highInside
    · exact HasHeight.not_of_reaches_cycle reaches cyclic
  · exact faulty_of_unfolding (store.size + 1) (by simp) (.start store type)

/-- A fault is what all limits have in common. -/
theorem refused_always_iff : (∀ limit, Refused store limit type) ↔ Faulty store type := by
  rw [faulty_iff]
  constructor
  · intro refused height high
    exact refused_iff.mp (refused height) ⟨height, Nat.le_refl height, high⟩
  · intro refused limit
    rw [refused_iff]
    rintro ⟨height, _, high⟩
    exact refused height high

/-- After any history of questions no type is being unfolded; a height that is remembered is the
height of its type and within the limit; and a type that is remembered as refused is refused under
every limit, which is so exactly for the types that reach one that is not carried, or a cycle. -/
theorem remembered_invariant (store : Store) (limit : Nat) (history : List Question) :
    let memo := remembered store limit history
    memo.inProgress = [] ∧
      (∀ type height, memo.heights[type]? = some (some height) →
        HasHeight store type height ∧ height ≤ limit) ∧
      (∀ type, memo.heights[type]? = some none →
        (∀ other, Refused store other type) ∧ Faulty store type) ∧
      ∀ type, (∀ other, Refused store other type) ↔ Faulty store type := by
  intro memo
  have sound : memo.Sound store limit := remembered_sound store limit history
  refine ⟨sound.unfolding, sound.known, ?_, fun type => refused_always_iff⟩
  intro type known
  have faulty : Faulty store type := faulty_iff.mpr (sound.refused type known)
  exact ⟨refused_always_iff.mpr faulty, faulty⟩

end QueryAudit.Evaluability
