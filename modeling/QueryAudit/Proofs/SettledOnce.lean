import QueryAudit.Proofs.ReportedCalls

/-! Every call with the shape of an operator is settled exactly once. To settle a call is to ask the
model about it, so the questions of a pass tell which calls were settled and in which order. That
a receiver is looked at together with the call around it moves it forward in this order, but the
calls that are settled are those that a pass without this look would settle. -/
namespace QueryAudit

namespace Event

/-- The call that the model is asked about. -/
def askedCall? : Event → Option Call
  | askedSymbol call => some call
  | _ => none

/-- The calls that the model was asked about, in order. -/
def askedCalls (events : List Event) : List Call :=
  events.filterMap askedCall?

theorem askedCalls_append (left right : List Event) :
    askedCalls (left ++ right) = askedCalls left ++ askedCalls right :=
  List.filterMap_append

end Event

namespace Context

variable {context : Context}

/-- Judging a type asks the model nothing about calls. -/
theorem askedCalls_judge (memo : Evaluability.Memo) (call : Call) (method : String) (body : Expr)
    (type : TypeId) : Event.askedCalls (context.judge memo call method body type).2.1 = [] := by
  have looked (lookups : List Evaluability.Lookup) :
      Event.askedCalls (lookups.map fun lookup => .traced (.evaluated lookup)) = [] := by
    induction lookups with
    | nil => rfl
    | cons lookup lookups ih => exact ih
  simp only [judge]
  split
  · exact looked _
  · rw [Event.askedCalls_append, looked]
    rfl

/-- The classifier asks about the call it is given, once, and about no other. -/
theorem askedCalls_classify (memo : Evaluability.Memo) (call : Call) :
    Event.askedCalls (context.classify memo call).2.1 = [call] := by
  unfold classify
  split
  · split
    · split
      · rfl
      · split
        · split
          · rfl
          · exact congrArg (call :: ·) (askedCalls_judge ..)
        · rfl
    · rfl
  · rfl
  · rfl

end Context

namespace Pass

variable {α : Type} {context : Context} {view : Event → Option α} {shown : Call → List α}
  {before : State} {number : Nat}

theorem shows_askedCalls (context : Context) :
    Shows context Event.askedCall? fun call => [call] :=
  fun memo _ call => context.askedCalls_classify memo call

/-- A pass that is not cancelled asks about its sites in order, and marks them as settled. -/
theorem visitAll_asks (context : Context) (calls : List Call) :
    let sites := settleOrder context.config false 0 calls
    let visited := visitAll context .never {} 0 calls
    Event.askedCalls visited.1 = sites.map Prod.fst ∧
      visited.2.settled.size = sites.length ∧
      ∀ number, visited.2.settled.contains number = true ↔ number ∈ sites.map Prod.snd := by
  intro sites visited
  have settles : Settles context Event.askedCall? (fun call => [call]) {} sites visited :=
    visitAll_settles (shows_askedCalls context) calls context.trusts_empty rfl (by simp) (by simp)
  refine ⟨?_, ?_, ?_⟩
  · rw [Event.askedCalls, settles.shown, ← List.map_eq_flatMap]
  · rw [settles.size]
    simp
  · intro number
    rw [settles.marked]
    simp

/-- Leaving the trace aside, the events of a check are those of its visits. -/
theorem events_checkUnit (untraced : ∀ record, view (.traced record) = none) (config : Config)
    (model : Model) (flag : Cancellation) (unit : SourceUnit) :
    (checkUnit config model flag unit).events.filterMap view =
      (visitAll ⟨config, model, unit.file, unit.text⟩ flag {} 0
        (Expr.childCalls unit.roots)).1.filterMap view := by
  simp [checkUnit, run, untraced]

/-! ## Without a look at receivers -/

/-- Visits calls in order and settles each on its own visit only. -/
def visitUnchained (context : Context) (state : State) (number : Nat) :
    List Call → List Event × State
  | [] => ([], state)
  | call :: rest =>
    let (events, state) := settleOwn context state number call
    let (more, state) := visitUnchained context state (number + 1) rest
    (events ++ more, state)

theorem visitUnchained_cons (state : State) (number : Nat) (call : Call) (rest : List Call) :
    visitUnchained context state number (call :: rest) =
      let own := settleOwn context state number call
      let more := visitUnchained context own.2 (number + 1) rest
      (own.1 ++ more.1, more.2) :=
  rfl

theorem settleOwn_settles (shows : Shows context view shown) (sound : context.Trusts before.memo)
    (fresh : before.settled.contains number = false) (call : Call) :
    Settles context view shown before
      ([(call, number)].filter (·.1.isCandidate context.config))
      (settleOwn context before number call) := by
  unfold settleOwn
  by_cases candidate : call.isCandidate context.config = true
  · simp only [candidate, ↓reduceIte, List.filter_cons_of_pos, List.filter_nil]
    exact settle_settles shows before sound fresh call
  · simp only [candidate, Bool.false_eq_true, ↓reduceIte, not_false_eq_true,
      List.filter_cons_of_neg, List.filter_nil]
    exact .nothing sound

/-- Own visits settle the candidates in visiting order. -/
theorem visitUnchained_settles (shows : Shows context view shown) (calls : List Call)
    (sound : context.Trusts before.memo)
    (free : ∀ other, number ≤ other → before.settled.contains other = false) :
    Settles context view shown before
      ((calls.zipIdx number).filter (·.1.isCandidate context.config))
      (visitUnchained context before number calls) := by
  induction calls generalizing before number with
  | nil => exact .nothing sound
  | cons call rest ih =>
    have own := settleOwn_settles shows sound (free number (Nat.le_refl _)) call
    rw [visitUnchained_cons, List.zipIdx_cons, ← List.singleton_append, List.filter_append]
    refine own.append (ih own.sound ?_)
    intro other after
    have different : number ≠ other := by omega
    rw [own.marked, free other (by omega), Bool.false_or, List.any_eq_false]
    intro site listed
    have only : site = (call, number) := List.mem_singleton.mp (List.mem_filter.mp listed).1
    simp [only, different]

end Pass

/-- A pass that is not cancelled settles every call of the unit that has the shape of an operator,
wherever it stands in the trees, exactly once, and no other: these are the calls that the model is
asked about, their number is counted, and they are what is marked as settled in the end. A pass
that settled calls on their own visits only would settle the same, in visiting order. -/
theorem checkUnit_settles_once (config : Config) (model : Model) (unit : SourceUnit) :
    let context : Context := ⟨config, model, unit.file, unit.text⟩
    let calls := Expr.childCalls unit.roots
    let report := Pass.checkUnit config model .never unit
    (∀ memo call, Event.askedCalls (context.classify memo call).2.1 = [call]) ∧
      ∃ sites : List (Call × Nat), sites.Nodup ∧
        (∀ call number, (call, number) ∈ sites ↔
          calls[number]? = some call ∧ call.OperatorShaped config) ∧
        (∀ call, (∃ number, (call, number) ∈ sites) ↔
          (∃ root ∈ unit.roots, Expr.Holds call root) ∧ call.OperatorShaped config) ∧
        Event.askedCalls report.events = sites.map Prod.fst ∧
        report.summary.classified = sites.length ∧
        (∀ number, (Pass.visitAll context .never {} 0 calls).2.settled.contains number = true ↔
          number ∈ sites.map Prod.snd) ∧
        ∃ visited : List (Call × Nat), sites.Perm visited ∧ visited.Sublist calls.zipIdx ∧
          Event.askedCalls (Pass.visitUnchained context {} 0 calls).1 = visited.map Prod.fst := by
  intro context calls report
  obtain ⟨asked, size, marked⟩ := Pass.visitAll_asks context calls
  have exact : ∀ call number, (call, number) ∈ Pass.sitesOf config unit.roots ↔
      calls[number]? = some call ∧ call.OperatorShaped config := by
    intro call number
    rw [Pass.mem_sitesOf, Call.isCandidate_iff]
  have unchained : Pass.Settles context Event.askedCall? (fun call => [call]) {}
      (calls.zipIdx.filter (·.1.isCandidate config)) (Pass.visitUnchained context {} 0 calls) :=
    Pass.visitUnchained_settles (Pass.shows_askedCalls context) calls context.trusts_empty (by simp)
  refine ⟨context.askedCalls_classify, Pass.sitesOf config unit.roots,
    Pass.sitesOf_nodup config unit.roots, exact, ?_, ?_, size, marked,
    _, Pass.sitesOf_perm config unit.roots, List.filter_sublist, ?_⟩
  · intro call
    rw [← Expr.mem_childCalls_iff, List.mem_iff_getElem?]
    simp only [exact, exists_and_right]
    rfl
  · exact (Pass.events_checkUnit (fun _ => rfl) config model .never unit).trans asked
  · rw [Event.askedCalls, unchained.shown, ← List.map_eq_flatMap]

end QueryAudit
