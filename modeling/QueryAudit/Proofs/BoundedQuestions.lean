import Mathlib.Data.ENat.Lattice
import Mathlib.Data.Set.Card
import QueryAudit.Proofs.InnermostTypes
import QueryAudit.Proofs.LoggedQuestions

/-! How much work a question takes at most. The types that are being unfolded around a call are
different slots of the store, and a type with a height reaches a further slot on each of its levels;
so the number of slots bounds the depth of the calls, the heights, and any depth and height that are
added up, however great the limit is and whether the types are cyclic or not. An explanation starts
every round but the last one at a type that it has not seen. -/
namespace QueryAudit.Evaluability

variable {store : Store} {limit levels height : Nat} {memo : Memo} {type inner : TypeId}
  {path : List TypeId} {members : List Member} {good : Visit → Prop}

/-! ## Slots -/

/-- The ids that have a slot. -/
def slots (store : Store) : Set TypeId :=
  {id | id.index < store.size}

theorem encard_slots_le (store : Store) : (slots store).encard ≤ store.size := by
  have listed : slots store ⊆ ((Finset.range store.size).image TypeId.mk : Finset TypeId) := by
    intro id held
    exact Finset.mem_coe.mpr (Finset.mem_image.mpr ⟨id.index, Finset.mem_range.mpr held, rfl⟩)
  calc (slots store).encard
      ≤ (((Finset.range store.size).image TypeId.mk : Finset TypeId) : Set TypeId).encard :=
        Set.encard_le_encard listed
    _ = (((Finset.range store.size).image TypeId.mk).card : ℕ∞) := Set.encard_coe_eq_coe_finsetCard _
    _ ≤ (store.size : ℕ∞) := by
        exact_mod_cast Finset.card_image_le.trans (Finset.card_range store.size).le

theorem Part.held (part : Part store type inner) : type ∈ slots store := by
  cases part with
  | member held _ => exact Store.lt_size held
  | element held => exact Store.lt_size held

/-- A type with a height reaches slots only. -/
theorem HasHeight.reachable_subset_slots (high : HasHeight store type height) :
    reachable store type ⊆ slots store := by
  intro inner reaches
  have found : ∃ lower, HasHeight store inner lower := by
    rcases Relation.reflTransGen_iff_eq_or_transGen.mp reaches with rfl | contains
    · exact ⟨height, high⟩
    · obtain ⟨lower, _, highInside⟩ := high.contained contains
      exact ⟨lower, highInside⟩
  obtain ⟨lower, highInside⟩ := found
  cases highInside with
  | enumeration held | scalar held | record held | array held => exact Store.lt_size held

/-- Different slots are no more than there are. -/
theorem length_le_size (once : path.Nodup) (held : ∀ id ∈ path, id ∈ slots store) :
    path.length ≤ store.size := by
  exact_mod_cast (length_le_encard once held).trans (encard_slots_le store)

/-- The types that are being unfolded around a type: slots that contain it, none of them twice. -/
structure Unfolding (store : Store) (path : List TypeId) (type : TypeId) : Prop where
  once : path.Nodup
  held : ∀ outer ∈ path, outer ∈ slots store
  inside : ∀ outer ∈ path, Contains store outer type

namespace Unfolding

theorem start (store : Store) (type : TypeId) : Unfolding store [] type :=
  ⟨.nil, by simp, by simp⟩

theorem deeper (unfolding : Unfolding store path type) (fresh : type ∉ path)
    (part : Part store type inner) : Unfolding store (type :: path) inner := by
  refine ⟨List.nodup_cons.mpr ⟨fresh, unfolding.once⟩,
    List.forall_mem_cons.mpr ⟨part.held, unfolding.held⟩, ?_⟩
  intro outer listed
  rcases List.mem_cons.mp listed with rfl | listed
  · exact .single part
  · exact (unfolding.inside outer listed).tail part

/-- What is being unfolded around a type with a height is not reached from it, and both together
are slots. -/
theorem length_add_lt (unfolding : Unfolding store path type) (high : HasHeight store type height) :
    path.length + height < store.size := by
  have apart : Disjoint {outer | outer ∈ path} (reachable store type) := by
    rw [Set.disjoint_left]
    intro outer listed reaches
    exact high.acyclic (Relation.TransGen.trans_right reaches (unfolding.inside outer listed))
  have together : {outer | outer ∈ path} ∪ reachable store type ⊆ slots store :=
    Set.union_subset unfolding.held high.reachable_subset_slots
  have counted : ((path.length + (height + 1) : Nat) : ℕ∞) ≤ (store.size : ℕ∞) :=
    calc ((path.length + (height + 1) : Nat) : ℕ∞)
        = (path.length : ℕ∞) + ((height + 1 : Nat) : ℕ∞) := by push_cast; rfl
      _ ≤ {outer | outer ∈ path}.encard + (reachable store type).encard := by
          gcongr
          · exact length_le_encard unfolding.once fun _ listed => listed
          · exact high.succ_le_encard
      _ = ({outer | outer ∈ path} ∪ reachable store type).encard :=
          (Set.encard_union_eq apart).symm
      _ ≤ (store.size : ℕ∞) := (Set.encard_le_encard together).trans (encard_slots_le store)
  have fits : path.length + (height + 1) ≤ store.size := by exact_mod_cast counted
  omega

end Unfolding

theorem HasHeight.lt_size (high : HasHeight store type height) : height < store.size := by
  simpa using (Unfolding.start store type).length_add_lt high

/-! ## Calls -/

/-- A call that is no deeper than there are slots, with an answer and a sum of its depth and a
remembered height that are less. -/
structure Visit.Bounded (store : Store) (visit : Visit) : Prop where
  depth : visit.depth ≤ store.size
  answer : ∀ height, visit.answer = some height → height < store.size
  sum : ∀ height, visit.known = some height → visit.depth + height < store.size

/-- A call that gives no height only has to be bounded in its depth. -/
theorem Visit.Bounded.of_depth {depth : Nat} (shallow : depth ≤ store.size) (type : TypeId) :
    Visit.Bounded store ⟨depth, type, none, none⟩ where
  depth := shallow
  answer := nofun
  sum := nofun

/-- What holds of the calls for each member holds of the calls for the record. -/
theorem recordHeightM_visits {ask : Memo → TypeId → Logged (Option Nat × Memo)}
    (reached : Nat) (sound : memo.Sound store limit path)
    (asked : ∀ member ∈ members, ∀ memo : Memo, memo.Sound store limit path →
      (∀ visit ∈ (ask memo member.type).visits, good visit) ∧
        (ask memo member.type).outcome.2.Sound store limit path) :
    ∀ visit ∈ (recordHeightM ask memo reached members).visits, good visit := by
  induction members generalizing memo reached with
  | nil => simp [recordHeightM]
  | cons head rest ih =>
    obtain ⟨first, soundAfter⟩ := asked head List.mem_cons_self memo sound
    simp only [recordHeightM, Logged.visits_bind, List.forall_mem_append]
    refine ⟨first, ?_⟩
    cases found : (ask memo head.type).outcome with
    | mk answer middle =>
      rw [found] at soundAfter
      cases answer with
      | none => simp
      | some height =>
        exact ih _ soundAfter fun member listed => asked member (List.mem_cons_of_mem _ listed)

/-- What holds of the calls for each part holds of the calls for the type. -/
theorem kindHeightM_visits {ask : Memo → TypeId → Logged (Option Nat × Memo)}
    (sound : memo.Sound store limit path)
    (asked : ∀ inner, Part store type inner → ∀ memo : Memo, memo.Sound store limit path →
      (∀ visit ∈ (ask memo inner).visits, good visit) ∧
        (ask memo inner).outcome.2.Sound store limit path) :
    ∀ visit ∈ (kindHeightM ask memo (store.kind? type)).visits, good visit := by
  cases held : store.kind? type with
  | none => simp [kindHeightM]
  | some kind =>
    cases kind with
    | anonymous members =>
      exact recordHeightM_visits 0 sound fun member listed =>
        asked member.type (.member held listed)
    | array element rank =>
      simpa [kindHeightM] using (asked element (.element held) memo sound).1
    | scalar | enumeration | named | placeholder => simp [kindHeightM]

/-- `measureM` where a log is kept. -/
abbrev measureLogged (store : Store) (levels depth : Nat) (memo : Memo) (type : TypeId) :
    Logged (Option Nat × Memo) :=
  measureM store levels depth memo type

/-- Measuring a type keeps the memory sound. -/
theorem measureLogged_sound (unfolding : Unfolding store path type)
    (sound : memo.Sound store limit path) (within : levels ≤ limit + 1) (depth : Nat) :
    (measureLogged store levels depth memo type).outcome.2.Sound store limit path := by
  rw [outcome_measureM]
  exact (measure_answered depth type sound within unfolding.inside).sound

/-- All calls that measuring a type makes are bounded. -/
theorem measureLogged_bounded (unfolding : Unfolding store path type)
    (sound : memo.Sound store limit path) (within : levels ≤ limit + 1) :
    ∀ visit ∈ (measureLogged store levels path.length memo type).visits, visit.Bounded store := by
  have shallow : path.length ≤ store.size := length_le_size unfolding.once unfolding.held
  induction levels generalizing path memo type with
  | zero =>
    simp only [measureM, Logged.visits_bind, Logged.visits_visited, Logged.visits_pure,
      List.append_nil, List.mem_singleton, forall_eq]
    exact .of_depth shallow type
  | succ levels ih =>
    cases known : memo.heights[type]? with
    | some outcome =>
      cases outcome with
      | none =>
        simp only [measureM, known, Logged.visits_bind, Logged.visits_visited, Logged.visits_pure,
          List.append_nil, List.mem_singleton, forall_eq]
        exact .of_depth shallow type
      | some height =>
        have high := (sound.known type height known).1
        have sum := unfolding.length_add_lt high
        simp only [measureM, known, Logged.visits_bind, Logged.visits_visited, Logged.visits_pure,
          List.append_nil, List.mem_singleton, forall_eq]
        refine ⟨shallow, ?_, ?_⟩
        · intro answer answered
          split at answered
          · cases answered
          · cases answered
            exact high.lt_size
        · rintro _ ⟨⟩
          exact sum
    | none =>
      by_cases cyclic : type ∈ memo.inProgress
      · simp only [measureM, known, cyclic, ↓reduceIte, Logged.visits_bind, Logged.visits_visited,
          Logged.visits_pure, List.append_nil, List.mem_singleton, forall_eq]
        exact .of_depth shallow type
      · have answered := (measure_answered path.length type sound within unfolding.inside).means
        rw [← outcome_measureM] at answered
        simp only [measureM, known, cyclic, ↓reduceIte, Logged.outcome_bind, Logged.outcome_pure]
          at answered
        simp only [measureM, known, cyclic, ↓reduceIte, Logged.visits_bind, Logged.visits_visited,
          Logged.visits_pure, List.append_nil, List.forall_mem_append, List.mem_singleton, forall_eq]
        refine ⟨?_, shallow, ?_, by simp⟩
        · have fresh : type ∉ path := sound.unfolding ▸ cyclic
          refine kindHeightM_visits (sound.enter type) ?_
          intro inner part memo sound
          have deeper := unfolding.deeper fresh part
          exact ⟨ih deeper sound (by omega) (length_le_size deeper.once deeper.held),
            measureLogged_sound deeper sound (by omega) _⟩
        · intro height found
          rw [show (kindHeightM _ _ _ : Logged _).outcome.1 = some height from found] at answered
          exact answered.1.lt_size

theorem evaluateLogged_sound (sound : memo.Sound store limit) (type : TypeId) :
    (evaluateLogged store limit memo type).outcome.2.Sound store limit := by
  rw [outcome_evaluateM]
  exact (evaluate_answered sound type).2

theorem evaluateLogged_bounded (sound : memo.Sound store limit) (type : TypeId) :
    ∀ visit ∈ (evaluateLogged store limit memo type).visits, visit.Bounded store := by
  cases known : memo.heights[type]? with
  | some outcome => simp [evaluateM, known]
  | none =>
    simpa [evaluateM, known] using
      measureLogged_bounded (.start store type) sound.unmarked (Nat.le_refl (limit + 1))

theorem firstRefusedM_bounded (sound : memo.Sound store limit) (members : List Member) :
    ∀ visit ∈ (firstRefusedM store limit memo members : Logged _).visits, visit.Bounded store := by
  induction members generalizing memo with
  | nil => simp [firstRefusedM]
  | cons member rest ih =>
    simp only [firstRefusedM, Logged.visits_bind, List.forall_mem_append]
    refine ⟨evaluateLogged_bounded sound member.type, ?_⟩
    split
    · simpa using ih (evaluateLogged_sound sound member.type)
    · simp

theorem nextBlamedM_bounded (sound : memo.Sound store limit) (current : TypeId) :
    ∀ visit ∈ (nextBlamedM store limit memo current : Logged _).visits, visit.Bounded store := by
  unfold nextBlamedM
  split
  · exact firstRefusedM_bounded sound _
  · simp
  · simp

/-- One round leads to a part of the type, and keeps the memory sound. -/
theorem nextBlamedM_part (sound : memo.Sound store limit) (current : TypeId) :
    (∀ next, (nextBlamedM store limit memo current : Logged _).outcome.1 = some next →
        Part store current next) ∧
      (nextBlamedM store limit memo current : Logged _).outcome.2.2.Sound store limit := by
  obtain ⟨step, soundAfter⟩ := nextBlamed_answered sound current
  rw [outcome_nextBlamedM]
  exact ⟨fun next found => ((step next).mp found).part, soundAfter⟩

theorem blameM_bounded (sound : memo.Sound store limit) (steps : Nat) (visited : List TypeId)
    (current : TypeId) :
    ∀ visit ∈ (blameM store limit steps visited memo current : Logged _).visits,
      visit.Bounded store := by
  induction steps generalizing visited memo current with
  | zero => simp [blameM]
  | succ steps ih =>
    by_cases seen : current ∈ visited
    · simp [blameM, seen]
    · obtain ⟨_, soundAfter⟩ := nextBlamedM_part sound current
      simp only [blameM, seen, ↓reduceIte, Logged.visits_bind, Logged.visits_started,
        List.nil_append, List.forall_mem_append]
      refine ⟨nextBlamedM_bounded sound current, ?_⟩
      split
      · simp
      · next next asked middle found =>
        rw [found] at soundAfter
        simpa using ih soundAfter (current :: visited) next

theorem explainLogged_bounded (sound : memo.Sound store limit) (type : TypeId) :
    ∀ visit ∈ (explainLogged store limit memo type).visits, visit.Bounded store := by
  simp only [explainM, Logged.visits_bind, List.forall_mem_append]
  refine ⟨evaluateLogged_bounded sound type, ?_⟩
  split
  · simp
  · simpa using blameM_bounded (evaluateLogged_sound sound type) limit [] type

/-! ## Rounds -/

theorem recordHeightM_rounds {ask : Memo → TypeId → Logged (Option Nat × Memo)}
    (none : ∀ memo type, (ask memo type).rounds = []) (memo : Memo) (reached : Nat)
    (members : List Member) : (recordHeightM ask memo reached members).rounds = [] := by
  induction members generalizing memo reached with
  | nil => rfl
  | cons member rest ih =>
    simp only [recordHeightM, Logged.rounds_bind, none, List.nil_append]
    split
    · rfl
    · exact ih ..

theorem measureLogged_rounds (store : Store) (levels depth : Nat) (memo : Memo) (type : TypeId) :
    (measureLogged store levels depth memo type).rounds = [] := by
  induction levels generalizing depth memo type with
  | zero => rfl
  | succ levels ih =>
    simp only [measureM]
    split
    · rfl
    · rfl
    · split
      · rfl
      · simp only [Logged.rounds_bind, Logged.rounds_visited, Logged.rounds_pure, List.append_nil]
        unfold kindHeightM
        split
        · rfl
        · rfl
        · exact recordHeightM_rounds (fun memo type => ih (depth + 1) memo type) ..
        · simp only [Logged.rounds_bind, Logged.rounds_pure, List.append_nil, ih]
        · rfl
        · rfl
        · rfl

theorem evaluateLogged_rounds (store : Store) (limit : Nat) (memo : Memo) (type : TypeId) :
    (evaluateLogged store limit memo type).rounds = [] := by
  unfold evaluateLogged evaluateM
  split
  · rfl
  · simp [measureLogged_rounds]

theorem firstRefusedM_rounds (store : Store) (limit : Nat) (memo : Memo) (members : List Member) :
    (firstRefusedM store limit memo members : Logged _).rounds = [] := by
  induction members generalizing memo with
  | nil => rfl
  | cons member rest ih =>
    simp only [firstRefusedM, Logged.rounds_bind, evaluateLogged_rounds, List.nil_append]
    split
    · simp [ih]
    · rfl

theorem nextBlamedM_rounds (store : Store) (limit : Nat) (memo : Memo) (current : TypeId) :
    (nextBlamedM store limit memo current : Logged _).rounds = [] := by
  unfold nextBlamedM
  split
  · exact firstRefusedM_rounds store limit memo _
  · rfl
  · rfl

/-- All rounds but the last one start at different types that are reached and were not visited
before, and take a step each. -/
theorem blameM_rounds (sound : memo.Sound store limit) (steps : Nat) (visited : List TypeId)
    (current : TypeId) :
    ∃ fresh last, (blameM store limit steps visited memo current : Logged _).rounds =
        fresh ++ [last] ∧
      fresh.Nodup ∧ fresh.length ≤ steps ∧ ∀ id ∈ fresh, id ∉ visited ∧ Reaches store current id := by
  induction steps generalizing visited memo current with
  | zero => exact ⟨[], current, rfl, by simp⟩
  | succ steps ih =>
    by_cases seen : current ∈ visited
    · exact ⟨[], current, by simp [blameM, seen], by simp⟩
    · obtain ⟨part, soundAfter⟩ := nextBlamedM_part sound current
      simp only [blameM, seen, ↓reduceIte, Logged.rounds_bind, Logged.rounds_started,
        nextBlamedM_rounds, List.nil_append]
      split
      · exact ⟨[], current, by simp, by simp⟩
      · next next asked middle found =>
        rw [found] at soundAfter
        obtain ⟨fresh, last, rounds, once, short, reached⟩ := ih soundAfter (current :: visited) next
        refine ⟨current :: fresh, last, by simp [rounds], ?_, by simpa using short, ?_⟩
        · rw [List.nodup_cons]
          exact ⟨fun again => (reached current again).1 List.mem_cons_self, once⟩
        · intro id listed
          rcases List.mem_cons.mp listed with rfl | listed
          · exact ⟨seen, .refl⟩
          · obtain ⟨unvisited, reaches⟩ := reached id listed
            exact ⟨fun before => unvisited (List.mem_cons_of_mem _ before),
              .head (part next (by rw [found])) reaches⟩

/-- An explanation goes round no more often than there are types to reach, nor than the limit
allows, and once more. -/
theorem explainLogged_rounds (sound : memo.Sound store limit) (type : TypeId) :
    ((explainLogged store limit memo type).rounds.length : ℕ∞) ≤
      min (limit : ℕ∞) (reachable store type).encard + 1 := by
  simp only [explainM, Logged.rounds_bind, evaluateLogged_rounds, List.nil_append]
  split
  · simp
  · obtain ⟨fresh, last, rounds, once, short, reached⟩ :=
      blameM_rounds (evaluateLogged_sound sound type) limit [] type
    have few : (fresh.length : ℕ∞) ≤ (reachable store type).encard :=
      length_le_encard once fun id listed => (reached id listed).2
    have within : (fresh.length : ℕ∞) ≤ limit := by exact_mod_cast short
    simp only [Logged.rounds_bind, rounds, Logged.rounds_pure, List.append_nil, List.length_append,
      List.length_singleton, Nat.cast_add, Nat.cast_one]
    gcongr
    exact le_min within few

end QueryAudit.Evaluability
