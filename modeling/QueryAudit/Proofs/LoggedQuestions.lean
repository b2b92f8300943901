import QueryAudit.Proofs.BlamedTypes

/-! Questions with a log of the work they take. To measure a type is to measure its parts, one call
inside the other, and to explain a refusal is to go round a loop; where a log is kept, the question
lists these calls and rounds. Its outcome is the outcome where nobody watches. -/
namespace QueryAudit.Evaluability

variable {α β : Type}

/-! ## Logs -/

/-- An outcome with the calls that were made for it, and the types at which a round of an
explanation started. -/
structure Logged (α : Type) where
  outcome : α
  visits : List Visit := []
  rounds : List TypeId := []

namespace Logged

instance : Watched Logged where
  pure outcome := { outcome }
  bind first next :=
    let second := next first.outcome
    ⟨second.outcome, first.visits ++ second.visits, first.rounds ++ second.rounds⟩
  visited visit := ⟨(), [visit], []⟩
  started type := ⟨(), [], [type]⟩

@[simp] theorem outcome_pure (outcome : α) : (pure outcome : Logged α).outcome = outcome := rfl

@[simp] theorem visits_pure (outcome : α) : (pure outcome : Logged α).visits = [] := rfl

@[simp] theorem rounds_pure (outcome : α) : (pure outcome : Logged α).rounds = [] := rfl

@[simp] theorem visits_visited (visit : Visit) :
    (Watched.visited visit : Logged Unit).visits = [visit] := rfl

@[simp] theorem rounds_visited (visit : Visit) :
    (Watched.visited visit : Logged Unit).rounds = [] := rfl

@[simp] theorem visits_started (type : TypeId) :
    (Watched.started type : Logged Unit).visits = [] := rfl

@[simp] theorem rounds_started (type : TypeId) :
    (Watched.started type : Logged Unit).rounds = [type] := rfl

variable (first : Logged α) (next : α → Logged β)

@[simp] theorem outcome_bind : (first >>= next).outcome = (next first.outcome).outcome := rfl

@[simp] theorem visits_bind :
    (first >>= next).visits = first.visits ++ (next first.outcome).visits := rfl

@[simp] theorem rounds_bind :
    (first >>= next).rounds = first.rounds ++ (next first.outcome).rounds := rfl

/-- Equal first steps that are followed by equal ones. -/
theorem bind_congr {first second : Logged α} {next other : α → Logged β} (same : first = second)
    (later : next second.outcome = other second.outcome) : (first >>= next) = (second >>= other) := by
  subst same
  simp only [bind, later]

end Logged

/-- `evaluateM` where a log is kept. -/
abbrev evaluateLogged (store : Store) (limit : Nat) (memo : Memo) (type : TypeId) :
    Logged (Lookup × Memo) :=
  evaluateM store limit memo type

/-- `explainM` where a log is kept. -/
abbrev explainLogged (store : Store) (limit : Nat) (memo : Memo) (type : TypeId) :
    Logged (Option TypeId × List Lookup × Memo) :=
  explainM store limit memo type

/-! ## Outcomes -/

theorem outcome_recordHeightM {ask : Memo → TypeId → Logged (Option Nat × Memo)}
    (memo : Memo) (height : Nat) (members : List Member) :
    (recordHeightM ask memo height members).outcome =
      recordHeight (fun memo type => (ask memo type).outcome) memo height members := by
  induction members generalizing memo height with
  | nil => rfl
  | cons member rest ih =>
    simp only [recordHeightM, recordHeight_cons, Logged.outcome_bind]
    cases (ask memo member.type).outcome with
    | mk answer memo =>
      cases answer with
      | none => rfl
      | some inner => exact ih memo (max height (inner + 1))

theorem outcome_kindHeightM {ask : Memo → TypeId → Logged (Option Nat × Memo)} (memo : Memo)
    (kind : Option Kind) :
    (kindHeightM ask memo kind).outcome =
      kindHeight (fun memo type => (ask memo type).outcome) memo kind := by
  cases kind with
  | none => rfl
  | some kind =>
    cases kind with
    | anonymous members => exact outcome_recordHeightM memo 0 members
    | _ => rfl

theorem outcome_measureM (store : Store) (levels depth : Nat) (memo : Memo) (type : TypeId) :
    (measureM store levels depth memo type : Logged (Option Nat × Memo)).outcome =
      measure store levels depth memo type := by
  induction levels generalizing depth memo type with
  | zero => rfl
  | succ levels ih =>
    cases known : memo.heights[type]? with
    | some outcome =>
      cases outcome with
      | none =>
        rw [measure_refused known]
        simp only [measureM, known, Logged.outcome_bind, Logged.outcome_pure]
      | some height =>
        rw [measure_known known]
        simp only [measureM, known, Logged.outcome_bind, Logged.outcome_pure]
    | none =>
      by_cases cyclic : type ∈ memo.inProgress
      · rw [measure_cyclic known cyclic]
        simp only [measureM, known, cyclic, ↓reduceIte, Logged.outcome_bind, Logged.outcome_pure]
      · rw [measure_unknown known cyclic]
        simp only [measureM, known, cyclic, ↓reduceIte, Logged.outcome_bind, Logged.outcome_pure,
          outcome_kindHeightM, ih]

theorem outcome_evaluateM (store : Store) (limit : Nat) (memo : Memo) (type : TypeId) :
    (evaluateLogged store limit memo type).outcome = evaluate store limit memo type := by
  cases known : memo.heights[type]? with
  | some outcome =>
    rw [evaluate_known known]
    simp only [evaluateM, known, Logged.outcome_pure]
  | none =>
    rw [evaluate_unknown known]
    simp only [evaluateM, known, Logged.outcome_bind, Logged.outcome_pure, outcome_measureM]

theorem outcome_firstRefusedM (store : Store) (limit : Nat) (memo : Memo) (members : List Member) :
    (firstRefusedM store limit memo members : Logged _).outcome =
      firstRefused store limit memo members := by
  induction members generalizing memo with
  | nil => rfl
  | cons member rest ih =>
    simp only [firstRefusedM, firstRefused_cons, Logged.outcome_bind, outcome_evaluateM]
    split
    · simp only [Logged.outcome_bind, Logged.outcome_pure, ih]
    · rfl

theorem outcome_nextBlamedM (store : Store) (limit : Nat) (memo : Memo) (current : TypeId) :
    (nextBlamedM store limit memo current : Logged _).outcome =
      nextBlamed store limit memo current := by
  unfold nextBlamed nextBlamedM
  split
  · exact outcome_firstRefusedM store limit memo _
  · rfl
  · rfl

theorem outcome_blameM (store : Store) (limit steps : Nat) (visited : List TypeId)
    (memo : Memo) (current : TypeId) :
    (blameM store limit steps visited memo current : Logged _).outcome =
      blame store limit steps visited memo current := by
  induction steps generalizing visited memo current with
  | zero => rfl
  | succ steps ih =>
    simp only [blameM, blame_succ, Logged.outcome_bind]
    by_cases seen : current ∈ visited
    · simp only [seen, ↓reduceIte, Logged.outcome_pure]
    · simp only [seen, ↓reduceIte, Logged.outcome_bind, outcome_nextBlamedM]
      cases nextBlamed store limit memo current with
      | mk answer rest =>
        cases answer with
        | none => rfl
        | some next => simp only [Logged.outcome_bind, Logged.outcome_pure, ih]

theorem outcome_explainM (store : Store) (limit : Nat) (memo : Memo) (type : TypeId) :
    (explainLogged store limit memo type).outcome = explain store limit memo type := by
  simp only [explainM, explain_eq, Logged.outcome_bind, outcome_evaluateM]
  split
  · rfl
  · simp only [Logged.outcome_bind, Logged.outcome_pure, outcome_blameM]

end QueryAudit.Evaluability
