import QueryAudit.Proofs.RememberedAnswers

/-! Which type an explanation ends on. The walk of an explanation is described without a memory:
from a record it goes to the first refused member, from an array to the element, refused or not.
Every step from a record ends on a refused type, so a walk can only leave the refused types
through an array that is itself refused while its element is not, which is an array exactly one
level too high. From there on everything is plain data. -/
namespace QueryAudit.Evaluability

variable {store : Store} {limit steps : Nat} {type current next found other : TypeId}
  {memo : Memo} {members : List Member} {visited : List TypeId}

/-- The first member of a list that is not plain data, if there is one. -/
inductive FirstRefused (store : Store) (limit : Nat) : List Member → Option TypeId → Prop where
  | none : FirstRefused store limit [] none
  | here {head : Member} {rest : List Member}
      (refused : ¬ PlainWithin store limit head.type) :
      FirstRefused store limit (head :: rest) (some head.type)
  | later {head : Member} {rest : List Member} {found : Option TypeId}
      (plain : PlainWithin store limit head.type)
      (first : FirstRefused store limit rest found) :
      FirstRefused store limit (head :: rest) found

/-- One step inwards of an explanation. -/
inductive Blames (store : Store) (limit : Nat) : TypeId → TypeId → Prop where
  | member {type next : TypeId} {members : List Member}
      (held : store.kind? type = some (.anonymous members))
      (first : FirstRefused store limit members (some next)) : Blames store limit type next
  | element {type element : TypeId} {rank : Nat}
      (held : store.kind? type = some (.array element rank)) : Blames store limit type element

/-- A number of steps inwards. -/
inductive Trail (store : Store) (limit : Nat) : Nat → TypeId → TypeId → Prop where
  | here {type : TypeId} : Trail store limit 0 type type
  | onward {steps : Nat} {type next last : TypeId} (step : Blames store limit type next)
      (rest : Trail store limit steps next last) : Trail store limit (steps + 1) type last

/-- A walk of at most `steps` steps that turns back to no type in `visited`, up to its last
type. -/
inductive Walk (store : Store) (limit : Nat) : Nat → List TypeId → TypeId → TypeId → Prop where
  | spent {visited : List TypeId} {current : TypeId} : Walk store limit 0 visited current current
  | again {steps : Nat} {visited : List TypeId} {current : TypeId} (seen : current ∈ visited) :
      Walk store limit (steps + 1) visited current current
  | stuck {steps : Nat} {visited : List TypeId} {current : TypeId} (fresh : current ∉ visited)
      (last : ∀ next, ¬ Blames store limit current next) :
      Walk store limit (steps + 1) visited current current
  | onward {steps : Nat} {visited : List TypeId} {current next found : TypeId}
      (fresh : current ∉ visited) (step : Blames store limit current next)
      (rest : Walk store limit steps (current :: visited) next found) :
      Walk store limit (steps + 1) visited current found

namespace FirstRefused

theorem unique {first second : Option TypeId} (left : FirstRefused store limit members first)
    (right : FirstRefused store limit members second) : first = second := by
  induction left with
  | none => cases right; rfl
  | here refused =>
    cases right with
    | here => rfl
    | later plain => exact absurd plain refused
  | later plain _ ih =>
    cases right with
    | here refused => exact absurd plain refused
    | later _ right => exact ih right

theorem exists_answer (store : Store) (limit : Nat) (members : List Member) :
    ∃ answer, FirstRefused store limit members answer := by
  induction members with
  | nil => exact ⟨Option.none, .none⟩
  | cons head rest ih =>
    by_cases plain : PlainWithin store limit head.type
    · obtain ⟨answer, first⟩ := ih
      exact ⟨answer, .later plain first⟩
    · exact ⟨some head.type, .here plain⟩

theorem listed (first : FirstRefused store limit members (some next)) :
    ∃ member ∈ members, member.type = next := by
  generalize outcome : some next = answer at first
  induction first with
  | none => cases outcome
  | @here head rest refused =>
    cases outcome
    exact ⟨head, List.mem_cons_self, rfl⟩
  | later plain _ ih =>
    obtain ⟨member, listed, same⟩ := ih outcome
    exact ⟨member, List.mem_cons_of_mem _ listed, same⟩

theorem refused (first : FirstRefused store limit members (some next)) :
    ¬ PlainWithin store limit next := by
  generalize outcome : some next = answer at first
  induction first with
  | none => cases outcome
  | here refused =>
    cases outcome
    exact refused
  | later plain _ ih => exact ih outcome

end FirstRefused

namespace Blames

theorem part (step : Blames store limit type next) : Part store type next := by
  cases step with
  | member held first =>
    obtain ⟨member, listed, rfl⟩ := first.listed
    exact .member held listed
  | element held => exact .element held

theorem unique (left : Blames store limit type next) (right : Blames store limit type other) :
    next = other := by
  cases left with
  | member held first =>
    cases right with
    | member again second =>
      cases held.symm.trans again
      exact Option.some.inj (first.unique second)
    | element again => cases held.symm.trans again
  | element held =>
    cases right with
    | member again second => cases held.symm.trans again
    | element again =>
      cases held.symm.trans again
      rfl

/-- A step from a refused type to plain data leaves an array exactly one level too high. -/
theorem leaves_array (step : Blames store limit type next)
    (refused : ¬ PlainWithin store limit type) (plain : PlainWithin store limit next) :
    ∃ element rank, store.kind? type = some (.array element rank) ∧
      HasHeight store type (limit + 1) := by
  cases step with
  | member held first => exact absurd plain first.refused
  | @element rank held =>
    obtain ⟨height, within, high⟩ := plain
    have exceeds : limit < height + 1 := Nat.lt_of_not_le fun fits =>
      refused ⟨height + 1, fits, .array held high⟩
    have same : height = limit := by omega
    subst same
    exact ⟨next, rank, held, .array held high⟩

end Blames

namespace Trail

theorem unique {last lastAgain : TypeId} (left : Trail store limit steps type last)
    (right : Trail store limit steps type lastAgain) : last = lastAgain := by
  induction left with
  | here => cases right; rfl
  | onward step _ ih =>
    cases right with
    | onward stepAgain rest =>
      cases step.unique stepAgain
      exact ih rest

theorem append {more : Nat} {middle last : TypeId} (first : Trail store limit steps type middle)
    (second : Trail store limit more middle last) :
    Trail store limit (steps + more) type last := by
  induction first with
  | here => simpa using second
  | onward step _ ih =>
    rw [Nat.add_right_comm]
    exact .onward step (ih second)

theorem split {more : Nat} {last : TypeId} (trail : Trail store limit (steps + more) type last) :
    ∃ middle, Trail store limit steps type middle ∧ Trail store limit more middle last := by
  induction steps generalizing type with
  | zero => exact ⟨type, .here, by simpa using trail⟩
  | succ steps ih =>
    rw [Nat.add_right_comm] at trail
    cases trail with
    | onward step rest =>
      obtain ⟨middle, first, second⟩ := ih rest
      exact ⟨middle, .onward step first, second⟩

theorem contains {last : TypeId} (trail : Trail store limit (steps + 1) type last) :
    Contains store type last := by
  induction steps generalizing type with
  | zero =>
    cases trail with
    | onward step rest =>
      cases rest
      exact .single step.part
  | succ steps ih =>
    cases trail with
    | onward step rest => exact .head step.part (ih rest)

/-- Steps are determined, so what follows a type that a trail returns to lies on a cycle. -/
theorem cyclic {more : Nat} {last : TypeId} (returns : Trail store limit (steps + 1) type type)
    (trail : Trail store limit more type last) : Contains store last last := by
  induction more using Nat.strongRecOn generalizing last with
  | ind more ih =>
    by_cases short : more ≤ steps
    · obtain ⟨left, rfl⟩ := Nat.exists_eq_add_of_le short
      rw [Nat.add_assoc] at returns
      obtain ⟨middle, first, second⟩ := returns.split
      cases first.unique trail
      exact Relation.TransGen.trans_left second.contains
        (by cases more with
          | zero => cases trail; exact .refl
          | succ more => exact trail.contains.to_reflTransGen)
    · obtain ⟨left, rfl⟩ := Nat.exists_eq_add_of_le (Nat.lt_of_not_le short)
      obtain ⟨middle, first, second⟩ := trail.split
      cases first.unique returns
      exact ih left (by omega) second

end Trail

/-- An array exactly one level too high, met in fewer than `steps` steps. -/
def Overshoots (store : Store) (limit steps : Nat) (type : TypeId) : Prop :=
  ∃ taken < steps, ∃ array element rank, Trail store limit taken type array ∧
    store.kind? array = some (.array element rank) ∧ HasHeight store array (limit + 1)

namespace Walk

theorem unique (left : Walk store limit steps visited current found)
    (right : Walk store limit steps visited current other) : found = other := by
  induction left with
  | spent => cases right; rfl
  | again seen =>
    cases right with
    | again | stuck => rfl
    | onward fresh => exact absurd seen fresh
  | stuck fresh last =>
    cases right with
    | again | stuck => rfl
    | onward _ step => exact absurd step (last _)
  | onward fresh step _ ih =>
    cases right with
    | again seen => exact absurd seen fresh
    | stuck _ last => exact absurd step (last _)
    | onward _ stepAgain rest =>
      cases step.unique stepAgain
      exact ih rest

theorem reaches (walk : Walk store limit steps visited current found) :
    Reaches store current found := by
  induction walk with
  | spent | again | stuck => exact .refl
  | onward _ step _ ih => exact .head step.part ih

/-- A walk that starts on plain data stays there. -/
theorem plain (walk : Walk store limit steps visited current found)
    (plain : PlainWithin store limit current) : PlainWithin store limit found := by
  induction walk with
  | spent | again | stuck => exact plain
  | onward _ step _ ih => exact ih (plain.part step.part)

/-- A walk from a refused type to plain data meets such an array before its last step. -/
theorem overshoots (walk : Walk store limit steps visited current found)
    (refused : ¬ PlainWithin store limit current) (plain : PlainWithin store limit found) :
    Overshoots store limit steps current := by
  induction walk with
  | spent | again | stuck => exact absurd plain refused
  | @onward steps visited current next found fresh step rest ih =>
    by_cases turned : PlainWithin store limit next
    · obtain ⟨element, rank, held, high⟩ := step.leaves_array refused turned
      exact ⟨0, Nat.succ_pos _, current, element, rank, .here, held, high⟩
    · obtain ⟨taken, less, array, element, rank, trail, held, high⟩ := ih turned plain
      exact ⟨taken + 1, by omega, array, element, rank, .onward step trail, held, high⟩

/-- A walk that meets such an array ends on plain data: it cannot have turned back before, since
the array would then lie on a cycle. -/
theorem plain_of_overshoots (walk : Walk store limit steps visited current found)
    (before : ∀ outer ∈ visited, ∃ taken, Trail store limit (taken + 1) outer current)
    (overshoots : Overshoots store limit steps current) : PlainWithin store limit found := by
  induction walk with
  | spent =>
    obtain ⟨taken, less, _⟩ := overshoots
    exact absurd less (Nat.not_lt_zero _)
  | again seen =>
    obtain ⟨taken, less, array, element, rank, trail, held, high⟩ := overshoots
    obtain ⟨returning, returns⟩ := before _ seen
    exact absurd (returns.cyclic trail) high.acyclic
  | stuck fresh last =>
    obtain ⟨taken, less, array, element, rank, trail, held, high⟩ := overshoots
    cases trail with
    | here => exact absurd (.element held) (last element)
    | onward step _ => exact absurd step (last _)
  | @onward steps visited current next found fresh step rest ih =>
    obtain ⟨taken, less, array, element, rank, trail, held, high⟩ := overshoots
    cases trail with
    | here =>
      cases step.unique (.element held)
      obtain ⟨height, lower, highInside⟩ := high.part step.part
      exact rest.plain ⟨height, by omega, highInside⟩
    | @onward taken _ _ _ stepAgain trail =>
      cases step.unique stepAgain
      refine ih ?_ ⟨taken, by omega, array, element, rank, trail, held, high⟩
      intro outer listed
      rcases List.mem_cons.mp listed with rfl | listed
      · exact ⟨0, .onward step .here⟩
      · obtain ⟨earlier, trailBefore⟩ := before outer listed
        exact ⟨earlier + 1, trailBefore.append (.onward step .here)⟩

end Walk

/-! ## The walk that is made -/

/-- `firstRefusedM` where nobody watches. -/
def firstRefused (store : Store) (limit : Nat) (memo : Memo) (members : List Member) :
    Option TypeId × List Lookup × Memo :=
  Id.run (firstRefusedM store limit memo members)

theorem firstRefused_cons (store : Store) (limit : Nat) (memo : Memo) (head : Member)
    (rest : List Member) :
    firstRefused store limit memo (head :: rest) =
      let (lookup, memo) := evaluate store limit memo head.type
      if lookup.outcome then
        let (found, lookups, memo) := firstRefused store limit memo rest
        (found, lookup :: lookups, memo)
      else (some head.type, [lookup], memo) :=
  rfl

theorem firstRefused_answered (sound : memo.Sound store limit) (members : List Member) :
    FirstRefused store limit members (firstRefused store limit memo members).1 ∧
      (firstRefused store limit memo members).2.2.Sound store limit := by
  induction members generalizing memo with
  | nil => exact ⟨.none, sound⟩
  | cons head rest ih =>
    obtain ⟨outcome, soundAfter⟩ := evaluate_answered sound head.type
    simp only [firstRefused_cons]
    by_cases plain : (evaluate store limit memo head.type).1.outcome = true
    · obtain ⟨first, soundLast⟩ := ih soundAfter
      simp only [plain, ↓reduceIte]
      exact ⟨.later (outcome.mp plain) first, soundLast⟩
    · simp only [plain, Bool.false_eq_true, ↓reduceIte]
      exact ⟨.here fun plainHead => plain (outcome.mpr plainHead), soundAfter⟩

/-- `nextBlamedM` where nobody watches. -/
def nextBlamed (store : Store) (limit : Nat) (memo : Memo) (current : TypeId) :
    Option TypeId × List Lookup × Memo :=
  Id.run (nextBlamedM store limit memo current)

theorem nextBlamed_eq (store : Store) (limit : Nat) (memo : Memo) (current : TypeId) :
    nextBlamed store limit memo current =
      match store.kind? current with
      | some (.anonymous members) => firstRefused store limit memo members
      | some (.array element _) => (some element, [], memo)
      | _ => (none, [], memo) :=
  rfl

/-- One step is made as described, whatever is remembered. -/
theorem nextBlamed_answered (sound : memo.Sound store limit) (current : TypeId) :
    (∀ next, (nextBlamed store limit memo current).1 = some next ↔ Blames store limit current next) ∧
      (nextBlamed store limit memo current).2.2.Sound store limit := by
  rw [nextBlamed_eq]
  cases held : store.kind? current with
  | none =>
    refine ⟨fun next => ⟨nofun, ?_⟩, sound⟩
    rintro (⟨again, _⟩ | again) <;> cases held.symm.trans again
  | some kind =>
    cases kind with
    | anonymous members =>
      obtain ⟨first, soundAfter⟩ := firstRefused_answered sound members
      refine ⟨fun next => ⟨fun found => .member held (found ▸ first), ?_⟩, soundAfter⟩
      rintro (⟨again, second⟩ | again)
      · cases held.symm.trans again
        exact first.unique second
      · cases held.symm.trans again
    | array element rank =>
      refine ⟨fun next => ⟨?_, fun step => ?_⟩, sound⟩
      · rintro ⟨⟩
        exact .element held
      · rw [(Blames.element held).unique step]
    | scalar | enumeration | named | placeholder =>
      refine ⟨fun next => ⟨nofun, ?_⟩, sound⟩
      rintro (⟨again, _⟩ | again) <;> cases held.symm.trans again

/-- `blameM` where nobody watches. -/
def blame (store : Store) (limit steps : Nat) (visited : List TypeId) (memo : Memo)
    (current : TypeId) : TypeId × List Lookup × Memo :=
  Id.run (blameM store limit steps visited memo current)

theorem blame_succ (store : Store) (limit steps : Nat) (visited : List TypeId) (memo : Memo)
    (current : TypeId) :
    blame store limit (steps + 1) visited memo current =
      if current ∈ visited then (current, [], memo)
      else match nextBlamed store limit memo current with
        | (none, asked, memo) => (current, asked, memo)
        | (some next, asked, memo) =>
          let (found, lookups, memo) := blame store limit steps (current :: visited) memo next
          (found, asked ++ lookups, memo) :=
  rfl

/-- Blaming makes exactly the walk described, whatever is remembered. -/
theorem blame_walks (sound : memo.Sound store limit) (steps : Nat) (visited : List TypeId)
    (current : TypeId) :
    Walk store limit steps visited current (blame store limit steps visited memo current).1 ∧
      (blame store limit steps visited memo current).2.2.Sound store limit := by
  induction steps generalizing visited memo current with
  | zero => exact ⟨.spent, sound⟩
  | succ steps ih =>
    rw [blame_succ]
    by_cases seen : current ∈ visited
    · simp only [seen, ↓reduceIte]
      exact ⟨.again seen, sound⟩
    · obtain ⟨step, soundAfter⟩ := nextBlamed_answered sound current
      simp only [seen, ↓reduceIte]
      cases made : nextBlamed store limit memo current with
      | mk answer rest =>
      rw [made] at step soundAfter
      cases answer with
      | some next =>
        obtain ⟨walk, soundLast⟩ := ih soundAfter (current :: visited) next
        exact ⟨.onward seen ((step next).mp rfl) walk, soundLast⟩
      | none =>
        refine ⟨.stuck seen fun next onward => ?_, soundAfter⟩
        cases (step next).mpr onward

theorem explain_eq (store : Store) (limit : Nat) (memo : Memo) (type : TypeId) :
    explain store limit memo type =
      let (lookup, memo) := evaluate store limit memo type
      if lookup.outcome then (none, [lookup], memo)
      else
        let (found, lookups, memo) := blame store limit limit [] memo type
        (some found, lookup :: lookups, memo) :=
  rfl

/-- An explanation is given exactly for what is not plain data, and it is the end of the walk. -/
theorem explain_answered (sound : memo.Sound store limit) (type : TypeId) :
    (PlainWithin store limit type → (explain store limit memo type).1 = none) ∧
      (¬ PlainWithin store limit type → ∃ offender,
        (explain store limit memo type).1 = some offender ∧
          Walk store limit limit [] type offender) ∧
      (explain store limit memo type).2.2.Sound store limit := by
  obtain ⟨outcome, soundAfter⟩ := evaluate_answered sound type
  obtain ⟨walk, soundLast⟩ := blame_walks soundAfter limit [] type
  simp only [explain_eq]
  by_cases plain : (evaluate store limit memo type).1.outcome = true
  · simp only [plain, ↓reduceIte]
    exact ⟨fun _ => trivial, fun refused => absurd (outcome.mp plain) refused, soundAfter⟩
  · simp only [plain, Bool.false_eq_true, ↓reduceIte]
    exact ⟨fun plainType => absurd (outcome.mpr plainType) plain, fun _ => ⟨_, rfl, walk⟩,
      soundLast⟩

end QueryAudit.Evaluability
