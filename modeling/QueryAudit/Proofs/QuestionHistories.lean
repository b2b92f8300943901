import Mathlib.Data.List.Permutation
import QueryAudit.Proofs.BlamedTypes

/-! Answers after any history of questions. One memory serves all questions of a pass; whatever
was asked before, a type is taken for plain data exactly when its height is within the limit, and
an explanation blames a type that is reached and, but for one kind of array, refused. -/
namespace QueryAudit.Evaluability

variable {store : Store} {limit : Nat} {memo : Memo} {type offender : TypeId}

/-- The questions that can be put to a memory. -/
inductive Question where
  | evaluate (type : TypeId)
  | evaluate? (type : Option TypeId)
  | explain (type : TypeId)

/-- What is remembered after a question. -/
def Question.ask (store : Store) (limit : Nat) (memo : Memo) : Question → Memo
  | evaluate type => (Evaluability.evaluate store limit memo type).2
  | evaluate? type => (Evaluability.evaluate? store limit memo type).2.2
  | explain type => (Evaluability.explain store limit memo type).2.2

/-- What is remembered after a history of questions. -/
def remembered (store : Store) (limit : Nat) (history : List Question) : Memo :=
  history.foldl (Question.ask store limit) {}

theorem Question.ask_sound (question : Question) (sound : memo.Sound store limit) :
    (question.ask store limit memo).Sound store limit := by
  cases question with
  | evaluate type => exact (evaluate_answered sound type).2
  | evaluate? type =>
    cases type with
    | none => exact sound
    | some type => exact (evaluate_answered sound type).2
  | explain type => exact (explain_answered sound type).2.2

/-- Soundness is kept by every question and so by every history. -/
theorem remembered_sound (store : Store) (limit : Nat) (history : List Question) :
    (remembered store limit history).Sound store limit := by
  have kept (memo : Memo) (sound : memo.Sound store limit) :
      (history.foldl (Question.ask store limit) memo).Sound store limit := by
    induction history generalizing memo with
    | nil => exact sound
    | cons question rest ih => exact ih _ (question.ask_sound sound)
  exact kept {} (.empty store limit)

/-- A type is taken for plain data exactly when it has a height within the limit, whatever was
asked before. -/
theorem evaluate_iff_height (store : Store) (limit : Nat) (history : List Question)
    (type : TypeId) :
    (evaluate store limit (remembered store limit history) type).1.outcome = true ↔
      ∃ height ≤ limit, HasHeight store type height :=
  (evaluate_answered (remembered_sound store limit history) type).1

/-- A blamed type is reached from the type explained. It is refused itself, unless the walk went
through an array exactly one level too high: the element of such an array is plain data, and so
is all that follows. -/
theorem explain_blames_refused_iff (store : Store) (limit : Nat) (history : List Question)
    (type offender : TypeId)
    (blamed : (explain store limit (remembered store limit history) type).1 = some offender) :
    Reaches store type offender ∧
      ((evaluate store limit (remembered store limit (history ++ [.explain type])) offender).1.outcome
          = false ↔
        ¬ Overshoots store limit limit type) := by
  obtain ⟨fine, faulty, _⟩ := explain_answered (remembered_sound store limit history) type
  by_cases plain : PlainWithin store limit type
  · rw [fine plain] at blamed
    cases blamed
  · obtain ⟨found, explained, walk⟩ := faulty plain
    cases Option.some.inj (blamed.symm.trans explained)
    refine ⟨walk.reaches, ?_⟩
    have outcome := (evaluate_answered
      (remembered_sound store limit (history ++ [.explain type])) offender).1
    rw [Bool.eq_false_iff, ne_eq, outcome]
    exact not_congr ⟨walk.overshoots plain, walk.plain_of_overshoots (by simp)⟩

/-- Arrays of arrays of integers: the outer array is one level too high for a limit of one. -/
def jagged : Store :=
  ((Store.empty.array (Store.scalar .int32)).2.array ⟨19⟩).2

/-- The walk from the outer array leaves the refused types. -/
theorem explain_blames_refused_iff_jagged :
    (explain jagged 1 (remembered jagged 1 [.evaluate ⟨20⟩]) ⟨20⟩).1 = some ⟨19⟩ ∧
      Reaches jagged ⟨20⟩ ⟨19⟩ ∧
      ((evaluate jagged 1 (remembered jagged 1 ([.evaluate ⟨20⟩] ++ [.explain ⟨20⟩])) ⟨19⟩).1.outcome
          = false ↔ ¬ Overshoots jagged 1 1 ⟨20⟩) := by
  have blamed : (explain jagged 1 (remembered jagged 1 [.evaluate ⟨20⟩]) ⟨20⟩).1 = some ⟨19⟩ := by
    cbv
  exact ⟨blamed, explain_blames_refused_iff jagged 1 [.evaluate ⟨20⟩] ⟨20⟩ ⟨19⟩ blamed⟩

/-- Not every blamed type is refused: of an array of arrays of integers that is one level too
high, the inner array is blamed, which is plain data. -/
theorem explain_blames_plain_data :
    (explain jagged 1 (remembered jagged 1 []) ⟨20⟩).1 = some ⟨19⟩ ∧
      (evaluate jagged 1 (remembered jagged 1 [.explain ⟨20⟩]) ⟨19⟩).1.outcome = true := by
  constructor
  · cbv
  · cbv

end QueryAudit.Evaluability
