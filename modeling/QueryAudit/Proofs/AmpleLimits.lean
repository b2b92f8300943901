import QueryAudit.Proofs.BoundedQuestions

/-! Limits that cut nothing off. No call is deeper than there are slots, so a limit of as many levels
makes no difference to the work of a question: it ends by itself, on cyclic types too. Main statement:
what the calls, heights and rounds of a question are bounded by. -/
namespace QueryAudit.Evaluability

variable {store : Store} {limit other levels more steps : Nat} {memo : Memo} {type : TypeId}
  {path visited : List TypeId} {members : List Member}

theorem recordHeightM_congr {ask askAgain : Memo → TypeId → Logged (Option Nat × Memo)}
    (reached : Nat) (sound : memo.Sound store limit path)
    (same : ∀ member ∈ members, ∀ memo : Memo, memo.Sound store limit path →
      ask memo member.type = askAgain memo member.type ∧
        (askAgain memo member.type).outcome.2.Sound store limit path) :
    recordHeightM ask memo reached members = recordHeightM askAgain memo reached members := by
  induction members generalizing memo reached with
  | nil => rfl
  | cons head rest ih =>
    obtain ⟨first, soundAfter⟩ := same head List.mem_cons_self memo sound
    rw [recordHeightM, recordHeightM]
    refine Logged.bind_congr first ?_
    cases found : (askAgain memo head.type).outcome with
    | mk answer middle =>
      rw [found] at soundAfter
      cases answer with
      | none => rfl
      | some height =>
        exact ih _ soundAfter fun member listed => same member (List.mem_cons_of_mem _ listed)

theorem kindHeightM_congr {ask askAgain : Memo → TypeId → Logged (Option Nat × Memo)}
    (sound : memo.Sound store limit path)
    (same : ∀ inner, Part store type inner → ∀ memo : Memo, memo.Sound store limit path →
      ask memo inner = askAgain memo inner ∧
        (askAgain memo inner).outcome.2.Sound store limit path) :
    kindHeightM ask memo (store.kind? type) = kindHeightM askAgain memo (store.kind? type) := by
  cases held : store.kind? type with
  | none => rfl
  | some kind =>
    cases kind with
    | anonymous members =>
      exact recordHeightM_congr 0 sound fun member listed =>
        same member.type (.member held listed)
    | array element rank =>
      simp only [kindHeightM, (same element (.element held) memo sound).1]
    | scalar | enumeration | named | placeholder => rfl

/-- With more levels than there are slots besides those that are being unfolded, the number of
levels makes no difference. -/
theorem measureLogged_levels (unfolding : Unfolding store path type)
    (sound : memo.Sound store limit path) (within : more ≤ limit + 1)
    (enough : store.size < path.length + levels) (moreEnough : store.size < path.length + more) :
    measureLogged store levels path.length memo type =
      measureLogged store more path.length memo type := by
  have shallow := length_le_size unfolding.once unfolding.held
  induction levels generalizing more path memo type with
  | zero => omega
  | succ levels ih =>
    cases more with
    | zero => omega
    | succ more =>
      cases known : memo.heights[type]? with
      | some outcome =>
        cases outcome with
        | none => simp only [measureM, known]
        | some height =>
          have sum := unfolding.length_add_lt (sound.known type height known).1
          have fits : ¬ levels < height := by omega
          have fitsMore : ¬ more < height := by omega
          simp only [measureM, known, fits, fitsMore, ↓reduceIte]
      | none =>
        by_cases cyclic : type ∈ memo.inProgress
        · simp only [measureM, known, cyclic, ↓reduceIte]
        · have fresh : type ∉ path := sound.unfolding ▸ cyclic
          have below : kindHeightM (measureLogged store levels (path.length + 1))
                (memo.enter type) (store.kind? type) =
              kindHeightM (measureLogged store more (path.length + 1)) (memo.enter type)
                (store.kind? type) := by
            apply kindHeightM_congr (sound.enter type)
            intro inner part memo sound
            have deeper := unfolding.deeper fresh part
            refine ⟨ih deeper sound (by omega) ?_ ?_ (length_le_size deeper.once deeper.held),
              measureLogged_sound deeper sound (by omega) _⟩
            · rw [List.length_cons]
              omega
            · rw [List.length_cons]
              omega
          simp only [measureM, known, cyclic, ↓reduceIte]
          exact Logged.bind_congr below rfl

theorem evaluateLogged_limit (sound : memo.Sound store limit) (large : store.size ≤ limit)
    (otherLarge : store.size ≤ other) (type : TypeId) :
    evaluateLogged store other memo type = evaluateLogged store limit memo type := by
  cases known : memo.heights[type]? with
  | some outcome =>
    simp only [evaluateM, known]
    cases outcome with
    | none => rfl
    | some height =>
      have low := (sound.known type height known).1.lt_size
      have fits : height ≤ limit := low.le.trans large
      have fitsOther : height ≤ other := low.le.trans otherLarge
      simp only [Option.any_some, fits, fitsOther]
  | none =>
    have same : measureLogged store (other + 1) 0 { memo with truncated := false } type =
        measureLogged store (limit + 1) 0 { memo with truncated := false } type :=
      measureLogged_levels (.start store type) sound.unmarked le_rfl (by simp; omega)
        (by simp; omega)
    simp only [evaluateM, known]
    exact Logged.bind_congr same rfl

theorem firstRefusedM_limit (sound : memo.Sound store limit) (large : store.size ≤ limit)
    (otherLarge : store.size ≤ other) (members : List Member) :
    (firstRefusedM store other memo members : Logged _) = firstRefusedM store limit memo members := by
  induction members generalizing memo with
  | nil => rfl
  | cons member rest ih =>
    rw [firstRefusedM, firstRefusedM]
    refine Logged.bind_congr (evaluateLogged_limit sound large otherLarge member.type) ?_
    simp only [ih (evaluateLogged_sound sound member.type)]

theorem nextBlamedM_limit (sound : memo.Sound store limit) (large : store.size ≤ limit)
    (otherLarge : store.size ≤ other) (current : TypeId) :
    (nextBlamedM store other memo current : Logged _) = nextBlamedM store limit memo current := by
  unfold nextBlamedM
  split
  · exact firstRefusedM_limit sound large otherLarge _
  · rfl
  · rfl

/-- Once every slot was visited, the next type was visited too or has no slot. -/
theorem blameM_exhausted (once : visited.Nodup) (held : ∀ id ∈ visited, id ∈ slots store)
    (full : store.size ≤ visited.length) (steps : Nat) (memo : Memo) (current : TypeId) :
    blameM store limit steps visited memo current =
      (⟨(current, [], memo), [], [current]⟩ : Logged _) := by
  cases steps with
  | zero => rfl
  | succ steps =>
    by_cases seen : current ∈ visited
    · simp only [blameM, seen, ↓reduceIte]
      rfl
    · have missing : store.kind? current = none := by
        cases found : store.kind? current with
        | none => rfl
        | some kind =>
          have longer := length_le_size (List.nodup_cons.mpr ⟨seen, once⟩)
            (List.forall_mem_cons.mpr ⟨Store.lt_size found, held⟩)
          rw [List.length_cons] at longer
          omega
      simp only [blameM, seen, ↓reduceIte, nextBlamedM, missing]
      rfl

theorem blameM_limit (sound : memo.Sound store limit) (large : store.size ≤ limit)
    (otherLarge : store.size ≤ other) (once : visited.Nodup)
    (held : ∀ id ∈ visited, id ∈ slots store) (enough : store.size ≤ visited.length + steps)
    (moreEnough : store.size ≤ visited.length + more) (current : TypeId) :
    (blameM store other more visited memo current : Logged _) =
      blameM store limit steps visited memo current := by
  induction steps generalizing more visited memo current with
  | zero => rw [blameM_exhausted once held enough, blameM_exhausted once held enough]
  | succ steps ih =>
    cases more with
    | zero => rw [blameM_exhausted once held moreEnough, blameM_exhausted once held moreEnough]
    | succ more =>
      by_cases seen : current ∈ visited
      · simp only [blameM, seen, ↓reduceIte]
      · obtain ⟨part, soundAfter⟩ := nextBlamedM_part sound current
        simp only [blameM, seen, ↓reduceIte]
        refine Logged.bind_congr rfl ?_
        refine Logged.bind_congr (nextBlamedM_limit sound large otherLarge current) ?_
        cases found : (nextBlamedM store limit memo current : Logged _).outcome with
        | mk answer rest =>
          rw [found] at part soundAfter
          cases answer with
          | none => rfl
          | some next =>
            have deeper : store.size ≤ (current :: visited).length + steps := by
              rw [List.length_cons]
              omega
            have moreDeeper : store.size ≤ (current :: visited).length + more := by
              rw [List.length_cons]
              omega
            simp only [ih soundAfter (List.nodup_cons.mpr ⟨seen, once⟩)
              (List.forall_mem_cons.mpr ⟨(part next rfl).held, held⟩) deeper moreDeeper next]

theorem explainLogged_limit (sound : memo.Sound store limit) (large : store.size ≤ limit)
    (otherLarge : store.size ≤ other) (type : TypeId) :
    explainLogged store other memo type = explainLogged store limit memo type := by
  rw [explainLogged, explainLogged, explainM, explainM]
  refine Logged.bind_congr (evaluateLogged_limit sound large otherLarge type) ?_
  simp only [blameM_limit (evaluateLogged_sound sound type) large otherLarge .nil (by simp)
    (by simpa using large) (by simpa using otherLarge) type]

/-- Under limits that cut nothing off the same is remembered. -/
theorem remembered_limit (large : store.size ≤ limit) (otherLarge : store.size ≤ other)
    (history : List Question) : remembered store other history = remembered store limit history := by
  have kept (memo : Memo) (sound : memo.Sound store limit) :
      history.foldl (Question.ask store other) memo =
        history.foldl (Question.ask store limit) memo := by
    induction history generalizing memo with
    | nil => rfl
    | cons question rest ih =>
      have same : question.ask store other memo = question.ask store limit memo := by
        cases question with
        | evaluate type =>
          simp only [Question.ask, ← outcome_evaluateM,
            evaluateLogged_limit sound large otherLarge]
        | evaluate? type =>
          cases type with
          | none => rfl
          | some type =>
            simp only [Question.ask, evaluate?, ← outcome_evaluateM,
              evaluateLogged_limit sound large otherLarge]
        | explain type =>
          simp only [Question.ask, ← outcome_explainM,
            explainLogged_limit sound large otherLarge]
      rw [List.foldl_cons, List.foldl_cons, same]
      exact ih _ (question.ask_sound sound)
  exact kept {} (.empty store limit)

/-- Whatever was asked before, no call that evaluating or explaining a type makes is deeper than the
store has slots, and every height that is given as an answer or remembered is less than their number.
So are the depth of a call and the height that it finds remembered, added up: in a store with fewer
than `2 ^ 64` slots no sum gets to `2 ^ 64`, under any limit. A limit that is no less than the number
of slots has no part in the work: the calls, the rounds and the outcome are the same under any other
such limit. An explanation goes round once more than it finds new types at most, and once more than
the limit. -/
theorem questions_bounded (store : Store) (limit : Nat) (history : List Question) (type : TypeId) :
    let memo := remembered store limit history
    let evaluated := evaluateLogged store limit memo type
    let explained := explainLogged store limit memo type
    let visits := evaluated.visits ++ explained.visits
    (evaluated.outcome = evaluate store limit memo type ∧
        explained.outcome = explain store limit memo type) ∧
      (∀ visit ∈ visits, visit.depth ≤ store.size ∧
        ∀ height, visit.answer = some height → height < store.size) ∧
      (∀ (id : TypeId) (height : Nat), memo.heights[id]? = some (some height) →
        height < store.size) ∧
      (∀ visit ∈ visits, ∀ height, visit.known = some height →
        visit.depth + height < store.size) ∧
      (store.size < 2 ^ 64 → ∀ visit ∈ visits,
        (∀ height, visit.known = some height → visit.depth + height < 2 ^ 64) ∧
          ∀ height, visit.answer = some height → height + 1 < 2 ^ 64) ∧
      (store.size ≤ limit → ∀ other, store.size ≤ other →
        evaluateLogged store other (remembered store other history) type = evaluated ∧
          explainLogged store other (remembered store other history) type = explained) ∧
      (explained.rounds.length : ℕ∞) ≤
        min (limit : ℕ∞) {inner | Reaches store type inner}.encard + 1 := by
  intro memo evaluated explained visits
  have sound : memo.Sound store limit := remembered_sound store limit history
  have bounded : ∀ visit ∈ visits, visit.Bounded store :=
    List.forall_mem_append.mpr ⟨evaluateLogged_bounded sound type, explainLogged_bounded sound type⟩
  refine ⟨⟨outcome_evaluateM .., outcome_explainM ..⟩, ?_, ?_, ?_, ?_, ?_,
    explainLogged_rounds sound type⟩
  · intro visit listed
    exact ⟨(bounded visit listed).depth, (bounded visit listed).answer⟩
  · intro id height known
    exact (sound.known id height known).1.lt_size
  · intro visit listed
    exact (bounded visit listed).sum
  · intro small visit listed
    constructor
    · intro height known
      exact ((bounded visit listed).sum height known).trans small
    · intro height answered
      exact (Nat.succ_le_of_lt ((bounded visit listed).answer height answered)).trans_lt small
  · intro large other otherLarge
    rw [remembered_limit large otherLarge]
    exact ⟨evaluateLogged_limit sound large otherLarge type,
      explainLogged_limit sound large otherLarge type⟩

/-- The record that contains itself, under the greatest limit that fits in a word: no sum overflows,
and the work is the same as under a limit of as many levels as there are slots. -/
theorem questions_bounded_nested :
    let limit := 2 ^ 64 - 1
    let history : List Question := [.evaluate ⟨20⟩]
    let explained := explainLogged nested limit (remembered nested limit history) ⟨19⟩
    (nested.size < 2 ^ 64 ∧ nested.size ≤ limit ∧ nested.size ≤ 21) ∧
      (∀ visit ∈ explained.visits, ∀ height, visit.known = some height →
        visit.depth + height < 2 ^ 64) ∧
      explainLogged nested 21 (remembered nested 21 history) ⟨19⟩ = explained := by
  intro limit history explained
  have slots : nested.size = 21 := by cbv
  have small : nested.size < 2 ^ 64 := by omega
  have large : nested.size ≤ limit := by omega
  obtain ⟨_, _, _, _, sums, same, _⟩ := questions_bounded nested limit history ⟨19⟩
  refine ⟨⟨small, large, slots.le⟩, ?_, (same large 21 slots.le).2⟩
  intro visit listed
  exact (sums small visit (List.mem_append_right _ listed)).1

end QueryAudit.Evaluability
