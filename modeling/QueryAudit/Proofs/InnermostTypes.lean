import Mathlib.Data.Set.Card
import QueryAudit.Proofs.QuestionHistories
import QueryAudit.Proofs.StoreHistories

/-! Explanations of small types. A type that is made of no more types than the limit allows is never
refused for its depth: a height is shorter than the number of types below it. So whatever is
refused holds something that cannot be carried under any limit, and the walk of an explanation,
which never leaves the refused types then, stops only there or where it closes a cycle. -/
namespace QueryAudit.Evaluability

variable {store : Store} {limit steps height : Nat} {type current next found inner : TypeId}
  {members : List Member} {visited : List TypeId}

/-! ## Heights and numbers of types -/

/-- The types that a type is made of, itself included. -/
def reachable (store : Store) (type : TypeId) : Set TypeId :=
  {inner | Reaches store type inner}

theorem reachable_subset (reaches : Reaches store type inner) :
    reachable store inner ⊆ reachable store type :=
  fun _ further => reaches.trans further

theorem exists_tallest {heights : TypeId → Nat} (tall : tallest heights members = height + 1) :
    ∃ member ∈ members, heights member.type = height := by
  induction members with
  | nil => cases tall
  | cons head rest ih =>
    simp only [tallest, List.foldr_cons] at tall ih
    by_cases first : heights head.type = height
    · exact ⟨head, List.mem_cons_self, first⟩
    · obtain ⟨member, listed, same⟩ := ih (by omega)
      exact ⟨member, List.mem_cons_of_mem _ listed, same⟩

namespace HasHeight

/-- A type with some height has a part that is exactly one level lower. -/
theorem exists_part (high : HasHeight store type (height + 1)) :
    ∃ inner, Part store type inner ∧ HasHeight store inner height := by
  generalize whole : height + 1 = total at high
  cases high with
  | enumeration | scalar => cases whole
  | record held below =>
    obtain ⟨member, listed, rfl⟩ := exists_tallest whole.symm
    exact ⟨member.type, .member held listed, below member listed⟩
  | array held below =>
    cases whole
    exact ⟨_, .element held, below⟩

/-- A type reaches more types than it is high, one on each level. -/
theorem succ_le_encard (high : HasHeight store type height) :
    ((height + 1 : Nat) : ℕ∞) ≤ (reachable store type).encard := by
  induction height generalizing type with
  | zero =>
    have itself : type ∈ reachable store type := .refl
    simpa using Set.one_le_encard_iff_nonempty.mpr ⟨type, itself⟩
  | succ height ih =>
    obtain ⟨inner, part, highInside⟩ := high.exists_part
    have outside : type ∉ reachable store inner := fun back =>
      high.acyclic (.head' part back)
    have inside : insert type (reachable store inner) ⊆ reachable store type :=
      Set.insert_subset .refl (reachable_subset (.single part))
    calc ((height + 1 + 1 : Nat) : ℕ∞)
        = ((height + 1 : Nat) : ℕ∞) + 1 := by push_cast; rfl
      _ ≤ (reachable store inner).encard + 1 := by gcongr; exact ih highInside
      _ = (insert type (reachable store inner)).encard :=
          (Set.encard_insert_of_notMem outside).symm
      _ ≤ (reachable store type).encard := Set.encard_le_encard inside

end HasHeight

/-- A list without repetitions is no longer than a set that it is drawn from. -/
theorem length_le_encard {ids : List TypeId} {drawn : Set TypeId} (once : ids.Nodup)
    (inside : ∀ id ∈ ids, id ∈ drawn) : (ids.length : ℕ∞) ≤ drawn.encard := by
  rw [← List.toFinset_card_of_nodup once, ← Set.encard_coe_eq_coe_finsetCard]
  exact Set.encard_le_encard fun id listed => inside id (by simpa using listed)

/-- Where few types are reached, no height exceeds the limit. -/
theorem plainWithin_of_few (few : (reachable store type).encard ≤ limit)
    (reaches : Reaches store type inner) (high : HasHeight store inner height) :
    PlainWithin store limit inner := by
  have levels : ((height + 1 : Nat) : ℕ∞) ≤ limit :=
    high.succ_le_encard.trans ((Set.encard_le_encard (reachable_subset reaches)).trans few)
  have within : height + 1 ≤ limit := by exact_mod_cast levels
  exact ⟨height, by omega, high⟩

/-! ## Descents -/

/-- Not taken for plain data, whatever was asked before. -/
def Refused (store : Store) (limit : Nat) (type : TypeId) : Prop :=
  ∀ history, (evaluate store limit (remembered store limit history) type).1.outcome = false

theorem refused_iff : Refused store limit type ↔ ¬ PlainWithin store limit type := by
  have outcome (history : List Question) :=
    (evaluate_answered (remembered_sound store limit history) type).1
  constructor
  · intro refused plain
    have taken := (outcome []).mpr plain
    rw [refused []] at taken
    cases taken
  · intro refused history
    rw [Bool.eq_false_iff, ne_eq, outcome]
    exact refused

/-- One step between refused types: from a record to its first refused member in the order of
declaration, from an array to its element. -/
inductive Descends (store : Store) (limit : Nat) : TypeId → TypeId → Prop where
  | member {type : TypeId} {before after : List Member} {member : Member}
      (held : store.kind? type = some (.anonymous (before ++ member :: after)))
      (earlier : ∀ other ∈ before, ¬ Refused store limit other.type)
      (refused : Refused store limit member.type) : Descends store limit type member.type
  | element {type element : TypeId} {rank : Nat}
      (held : store.kind? type = some (.array element rank))
      (refused : Refused store limit element) : Descends store limit type element

/-- A type that is not made of other types and is not carried: a scalar that is not transportable,
a declared type, a slot that is not defined, or no slot at all. -/
inductive Foreign (store : Store) (type : TypeId) : Prop where
  | scalar {scalar : Scalar} (held : store.kind? type = some (.scalar scalar))
      (kept : scalar.isTransportable = false)
  | named {name : String} {arguments : List TypeId}
      (held : store.kind? type = some (.named name arguments))
  | placeholder (held : store.kind? type = some .placeholder)
  | unknown (missing : store.kind? type = none)

namespace FirstRefused

/-- The members before the first refused one are plain data. -/
theorem split (first : FirstRefused store limit members (some next)) :
    ∃ before member after, members = before ++ member :: after ∧ member.type = next ∧
      ∀ other ∈ before, PlainWithin store limit other.type := by
  generalize outcome : some next = answer at first
  induction first with
  | none => cases outcome
  | @here head rest refused =>
    cases outcome
    exact ⟨[], head, rest, rfl, rfl, by simp⟩
  | @later head rest found plain _ ih =>
    obtain ⟨before, member, after, rfl, same, plainBefore⟩ := ih outcome
    refine ⟨head :: before, member, after, rfl, same, ?_⟩
    intro other listed
    rcases List.mem_cons.mp listed with rfl | listed
    · exact plain
    · exact plainBefore other listed

theorem plain_of_none (first : FirstRefused store limit members Option.none) :
    ∀ member ∈ members, PlainWithin store limit member.type := by
  generalize outcome : Option.none = answer at first
  induction first with
  | none => simp
  | here => cases outcome
  | later plain _ ih =>
    intro member listed
    rcases List.mem_cons.mp listed with rfl | listed
    · exact plain
    · exact ih outcome member listed

end FirstRefused

/-- A record of plain data has a height, if not one within the limit. -/
theorem exists_height_of_record (held : store.kind? type = some (.anonymous members))
    (plain : ∀ member ∈ members, PlainWithin store limit member.type) :
    ∃ height, HasHeight store type height := by
  have high : ∀ member ∈ members, ∃ inner < limit + 1, HasHeight store member.type inner := by
    intro member listed
    obtain ⟨inner, within, high⟩ := plain member listed
    exact ⟨inner, Nat.lt_succ_of_le within, high⟩
  obtain ⟨heights, below⟩ := exists_heights high
  exact ⟨_, .record held fun member listed => (below member listed).1⟩

/-- Where few types are reached, a step of an explanation stays among the refused types. -/
theorem Blames.descends (few : (reachable store type).encard ≤ limit)
    (reaches : Reaches store type current) (refused : ¬ PlainWithin store limit current)
    (step : Blames store limit current next) :
    ¬ PlainWithin store limit next ∧ Descends store limit current next := by
  cases step with
  | member held first =>
    obtain ⟨before, member, after, rfl, rfl, plainBefore⟩ := first.split
    refine ⟨first.refused, .member held ?_ (refused_iff.mpr first.refused)⟩
    intro other listed refusedOther
    exact refused_iff.mp refusedOther (plainBefore other listed)
  | element held =>
    have kept : ¬ PlainWithin store limit next := by
      rintro ⟨height, _, high⟩
      exact refused (plainWithin_of_few few reaches (.array held high))
    exact ⟨kept, .element held (refused_iff.mpr kept)⟩

/-- Where few types are reached, an explanation finds no further step only from a type that is not
carried and has no parts. -/
theorem foreign_of_stuck (few : (reachable store type).encard ≤ limit)
    (reaches : Reaches store type current) (refused : ¬ PlainWithin store limit current)
    (last : ∀ next, ¬ Blames store limit current next) : Foreign store current := by
  cases held : store.kind? current with
  | none => exact .unknown held
  | some kind =>
    cases kind with
    | scalar scalar =>
      cases kept : scalar.isTransportable with
      | false => exact .scalar held kept
      | true => exact absurd ⟨0, Nat.zero_le _, .scalar held kept⟩ refused
    | enumeration => exact absurd ⟨0, Nat.zero_le _, .enumeration held⟩ refused
    | anonymous members =>
      obtain ⟨answer, first⟩ := FirstRefused.exists_answer store limit members
      cases answer with
      | some next => exact absurd (.member held first) (last next)
      | none =>
        obtain ⟨height, high⟩ := exists_height_of_record held first.plain_of_none
        exact absurd (plainWithin_of_few few reaches high) refused
    | array element rank => exact absurd (.element held) (last element)
    | named => exact .named held
    | placeholder => exact .placeholder held

/-- The walk of an explanation through few types. What was visited are types around the current one,
and there is one step left for every type that was not. -/
theorem Walk.descends (few : (reachable store type).encard ≤ limit)
    (walk : Walk store limit steps visited current found) (reaches : Reaches store type current)
    (refused : ¬ PlainWithin store limit current) (once : visited.Nodup)
    (around : ∀ outer ∈ visited, Reaches store type outer ∧ Contains store outer current)
    (left : limit ≤ visited.length + steps) :
    Relation.ReflTransGen (Descends store limit) current found ∧
      (Foreign store found ∨ Contains store found found) := by
  induction walk with
  | @spent visited current =>
    -- the visited types are as many as can be reached, so the walk is back at one of them
    have seen : current ∈ visited := by
      by_contra fresh
      have drawn := length_le_encard (List.nodup_cons.mpr ⟨fresh, once⟩)
        (List.forall_mem_cons.mpr ⟨reaches, fun outer listed => (around outer listed).1⟩)
      have bounded : (current :: visited).length ≤ limit := by exact_mod_cast drawn.trans few
      rw [List.length_cons] at bounded
      omega
    exact ⟨.refl, .inr (around current seen).2⟩
  | again seen => exact ⟨.refl, .inr (around _ seen).2⟩
  | stuck fresh last => exact ⟨.refl, .inl (foreign_of_stuck few reaches refused last)⟩
  | @onward steps visited current next found fresh step rest ih =>
    obtain ⟨refusedNext, descends⟩ := step.descends few reaches refused
    have aroundNext : ∀ outer ∈ current :: visited,
        Reaches store type outer ∧ Contains store outer next := by
      intro outer listed
      rcases List.mem_cons.mp listed with rfl | listed
      · exact ⟨reaches, .single step.part⟩
      · exact ⟨(around outer listed).1, (around outer listed).2.tail step.part⟩
    obtain ⟨path, ends⟩ := ih (reaches.tail step.part) refusedNext
      (List.nodup_cons.mpr ⟨fresh, once⟩) aroundNext (by rw [List.length_cons]; omega)
    exact ⟨.head descends path, ends⟩

/-- A type that is refused and reaches no more types than the limit is explained by the end of a
descent through refused types, which is a type that is not carried and has no parts, or one that
contains itself. The explanation is the same whatever was asked before. -/
theorem explain_finds_innermost (store : Store) (limit : Nat) (history : List Question)
    (type : TypeId)
    (refused : (evaluate store limit (remembered store limit history) type).1.outcome = false)
    (few : {inner | Reaches store type inner}.encard ≤ limit) :
    ∃ offender, (explain store limit (remembered store limit history) type).1 = some offender ∧
      Refused store limit type ∧
      Relation.ReflTransGen (Descends store limit) type offender ∧
      (Foreign store offender ∨ Contains store offender offender) ∧
      ∀ other, (explain store limit (remembered store limit other) type).1 = some offender := by
  have outcome := (evaluate_answered (remembered_sound store limit history) type).1
  have kept : ¬ PlainWithin store limit type := by
    rw [← outcome, refused]
    exact Bool.false_ne_true
  have explained (other : List Question) :=
    (explain_answered (remembered_sound store limit other) type).2.1 kept
  obtain ⟨offender, blamed, walk⟩ := explained history
  obtain ⟨path, ends⟩ := walk.descends few .refl kept .nil (by simp) (by simp)
  refine ⟨offender, blamed, refused_iff.mpr kept, path, ends, ?_⟩
  intro other
  obtain ⟨again, blamedAgain, walkAgain⟩ := explained other
  rw [blamedAgain, walkAgain.unique walk]

/-- A list that holds a type, and with every type its parts, bounds the number of types reached. -/
theorem encard_reachable_le (ids : List TypeId) (start : type ∈ ids)
    (closed : ∀ outer ∈ ids, ∀ inner, Part store outer inner → inner ∈ ids) :
    (reachable store type).encard ≤ ids.length := by
  have inside : reachable store type ⊆ ids.toFinset := by
    intro inner reaches
    induction reaches with
    | refl => simpa using start
    | tail _ part ih => simpa using closed _ (by simpa using ih) _ part
  calc (reachable store type).encard
      ≤ (ids.toFinset : Set TypeId).encard := Set.encard_le_encard inside
    _ = (ids.toFinset.card : ℕ∞) := Set.encard_coe_eq_coe_finsetCard _
    _ ≤ (ids.length : ℕ∞) := by exact_mod_cast ids.toFinset_card_le

/-- A record with a number and an array of records of its own kind. -/
def nested : Store :=
  (Store.empty.performAll [.reserve, .array ⟨19⟩,
    .define ⟨19⟩ (.anonymous [⟨"Id", Store.scalar .int32⟩, ⟨"Children", ⟨20⟩⟩])]).2

/-- The record is made of three types and contains itself. For a limit of three the walk goes once
around, and it makes no difference that it was asked about the array before. -/
theorem explain_finds_innermost_nested :
    let history : List Question := [.evaluate ⟨20⟩]
    (evaluate nested 3 (remembered nested 3 history) ⟨19⟩).1.outcome = false ∧
      {inner | Reaches nested ⟨19⟩ inner}.encard ≤ (3 : Nat) ∧
      ∃ offender, (explain nested 3 (remembered nested 3 history) ⟨19⟩).1 = some offender ∧
        Refused nested 3 ⟨19⟩ ∧
        Relation.ReflTransGen (Descends nested 3) ⟨19⟩ offender ∧
        (Foreign nested offender ∨ Contains nested offender offender) ∧
        ∀ other, (explain nested 3 (remembered nested 3 other) ⟨19⟩).1 = some offender := by
  intro history
  have number : nested.kind? ⟨7⟩ = some (.scalar .int32) := by cbv
  have record : nested.kind? ⟨19⟩ = some (.anonymous [⟨"Id", ⟨7⟩⟩, ⟨"Children", ⟨20⟩⟩]) := by cbv
  have array : nested.kind? ⟨20⟩ = some (.array ⟨19⟩ 1) := by cbv
  have refused : (evaluate nested 3 (remembered nested 3 history) ⟨19⟩).1.outcome = false := by cbv
  have few : (reachable nested ⟨19⟩).encard ≤ (3 : Nat) := by
    refine encard_reachable_le [⟨19⟩, ⟨7⟩, ⟨20⟩] (by simp) ?_
    intro outer listed inner part
    simp only [List.mem_cons, List.not_mem_nil, or_false] at listed
    cases part with
    | member held isMember =>
      rcases listed with rfl | rfl | rfl
      · cases record.symm.trans held
        simp only [List.mem_cons, List.not_mem_nil, or_false] at isMember
        rcases isMember with rfl | rfl <;> simp
      · cases number.symm.trans held
      · cases array.symm.trans held
    | element held =>
      rcases listed with rfl | rfl | rfl
      · cases record.symm.trans held
      · cases number.symm.trans held
      · cases array.symm.trans held
        simp
  exact ⟨refused, few, explain_finds_innermost nested 3 history ⟨19⟩ refused few⟩

end QueryAudit.Evaluability
