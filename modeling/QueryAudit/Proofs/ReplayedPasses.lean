import QueryAudit.Proofs.IndependentRoots

/-! A pass against settling its sites one after the other. Marks of settled calls and readings of the
flag decide which calls a pass settles and in which order; besides that it does nothing but settle
them, each with what is remembered from those before it. -/
namespace QueryAudit

variable {context : Context}

namespace Context

/-- What is remembered after some calls have been settled. -/
def memoAfter (context : Context) (memo : Evaluability.Memo) : List Call → Evaluability.Memo
  | [] => memo
  | call :: rest => context.memoAfter (context.classify memo call).2.2 rest

theorem classifyAll_cons (memo : Evaluability.Memo) (call : Call) (rest : List Call) :
    context.classifyAll memo (call :: rest) =
      let settled := context.classify memo call
      let more := context.classifyAll settled.2.2 rest
      ((call, settled.1) :: more.1, settled.2.1 ++ more.2) :=
  rfl

/-- Calls are settled with what is remembered from the calls before them. -/
theorem classifyAll_append (memo : Evaluability.Memo) (left right : List Call) :
    context.classifyAll memo (left ++ right) =
      let first := context.classifyAll memo left
      let second := context.classifyAll (context.memoAfter memo left) right
      (first.1 ++ second.1, first.2 ++ second.2) := by
  induction left generalizing memo with
  | nil => rfl
  | cons call rest ih =>
    simp only [List.cons_append, classifyAll_cons, ih, memoAfter, List.append_assoc]

theorem memoAfter_append (memo : Evaluability.Memo) (left right : List Call) :
    context.memoAfter memo (left ++ right) =
      context.memoAfter (context.memoAfter memo left) right := by
  induction left generalizing memo with
  | nil => rfl
  | cons call rest ih => exact ih _

end Context

namespace Pass

variable {before : State} {number : Nat} {settled : Bool} {sites more : List Site}

/-- Some sites have been settled, and what happened is what settling their calls in order makes
happen. -/
structure Replays (context : Context) (before : State) (sites : List Site)
    (result : List Event × State) : Prop where
  events : result.1 = (context.classifyAll before.memo (sites.map Prod.fst)).2
  memo : result.2.memo = context.memoAfter before.memo (sites.map Prod.fst)

namespace Replays

theorem nothing : Replays context before [] ([], before) :=
  ⟨rfl, rfl⟩

theorem append {left right : List Event × State} (first : Replays context before sites left)
    (second : Replays context left.2 more right) :
    Replays context before (sites ++ more) (left.1 ++ right.1, right.2) := by
  constructor
  · simp only [List.map_append, Context.classifyAll_append, ← first.memo, ← first.events,
      ← second.events]
  · rw [List.map_append, Context.memoAfter_append, ← first.memo, ← second.memo]

end Replays

theorem settle_replays (before : State) (fresh : before.settled.contains number = false)
    (call : Call) : Replays context before [(call, number)] (settle context before number call) := by
  simp only [settle, fresh, Bool.false_eq_true, ↓reduceIte]
  exact ⟨(List.append_nil _).symm, rfl⟩

/-- Visiting a call settles its receiver and then the call, under the conditions under which these
are its sites. -/
theorem settleSite_replays (before : State) (sound : context.Trusts before.memo)
    (own : before.settled.contains number = settled)
    (free : before.settled.contains (number + 1) = false) (call : Call) :
    Replays context before (siteOrder context.config settled number call)
      (settleSite context before number call) := by
  have receiver : Replays context before
      ((call.chained? context.config).toList.map fun receiver => (receiver, number + 1))
      (settleReceiver context before number call) := by
    unfold settleReceiver
    cases call.chained? context.config with
    | none => exact .nothing
    | some receiver => exact settle_replays before free receiver
  have ownAfter : (settleReceiver context before number call).2.settled.contains number = settled :=
    (settleReceiver_settles (shows_diagnostics context) before sound free call).own_unchanged own
  rw [settleSite_halves]
  refine receiver.append ?_
  rw [settleOwn_eq _ call ownAfter]
  split
  · rename_i unsettled
    have fresh : settled = false := by simpa using (Bool.and_eq_true_iff.mp unsettled).2
    exact settle_replays _ (ownAfter.trans fresh) call
  · exact .nothing

theorem visitAll_replays (calls : List Call) (sound : context.Trusts before.memo)
    (running : before.cancelled = false) (own : before.settled.contains number = settled)
    (free : ∀ other, number < other → before.settled.contains other = false) :
    Replays context before (settleOrder context.config settled number calls)
      (visitAll context .never before number calls) := by
  induction calls generalizing before number settled with
  | nil => exact .nothing
  | cons call rest ih =>
    have next := free _ (Nat.lt_succ_self _)
    have visited : Replays context before (siteOrder context.config settled number call)
        (visit context .never before number call) := by
      rw [visit_never running]
      obtain ⟨events, memo⟩ := settleSite_replays { before with readings := before.readings + 1 }
        sound own next call
      exact ⟨events, memo⟩
    have site := visit_settles (shows_diagnostics context) sound running own next call
    obtain ⟨ownAfter, freeAfter⟩ := site.free_after free
    rw [visitAll_cons]
    exact visited.append (ih site.sound (site.running.trans running) ownAfter freeAfter)

/-- A check that is not cancelled logs what settling its sites in order logs, and then that the unit
was checked. -/
theorem checkUnit_replays {config : Config} {model : Model} {flag : Cancellation} {unit : SourceUnit}
    (uncancelled : (checkUnit config model flag unit).summary.cancelled = false) :
    let context : Context := ⟨config, model, unit.file, unit.text⟩
    let report := checkUnit config model flag unit
    report.events = (context.classifyAll {} ((sitesOf config unit.roots).map Prod.fst)).2 ++
      [.traced (.analyzed unit.file unit.roots.length report.summary)] := by
  intro context report
  have replays : Replays context {} (sitesOf config unit.roots)
      (visitAll context .never {} 0 (Expr.childCalls unit.roots)) :=
    visitAll_replays (Expr.childCalls unit.roots) context.trusts_empty rfl (by simp) (by simp)
  rw [show report = _ from checkUnit_uncancelled uncancelled, ← replays.events]
  rfl

theorem diagnostics_replayed {config : Config} {model : Model} {flag : Cancellation}
    {unit : SourceUnit}
    (uncancelled : (checkUnit config model flag unit).summary.cancelled = false) :
    let context : Context := ⟨config, model, unit.file, unit.text⟩
    (checkUnit config model flag unit).diagnostics =
      Event.diagnostics (context.classifyAll {} ((sitesOf config unit.roots).map Prod.fst)).2 := by
  intro context
  rw [Report.diagnostics, checkUnit_replays uncancelled, Event.diagnostics, List.filterMap_append]
  exact List.append_nil _

end Pass
end QueryAudit
