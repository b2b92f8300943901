import QueryAudit.Proofs.PassLogs

/-! Configurations that look at more. Recognizing more operators, counting more types as remote and
allowing less depth takes no call-site out of a pass and no diagnostic off a call-site. The two
passes differ in the order in which they settle calls and in what they remember, but neither
matters for what is found at a call. -/
namespace QueryAudit

/-- A configuration that looks at all that another one looks at, and lets no deeper types pass. -/
structure Config.Covers (wide narrow : Config) : Prop where
  operators : ∀ name, narrow.isOperator name = true → wide.isOperator name = true
  family : ∀ type, narrow.remoteFamily.contains type = true → wide.remoteFamily.contains type = true
  depth : wide.maxTypeDepth ≤ narrow.maxTypeDepth

/-- The same diagnostic but for the texts of its labels. -/
def Diagnostic.Relabels (diagnostic other : Diagnostic) : Prop :=
  { diagnostic with labels := [] } = { other with labels := [] } ∧
    diagnostic.labels.map Label.span = other.labels.map Label.span

/-- A diagnostic depends on the file and its text, but for its label on the blamed type. -/
theorem Context.diagnose_relabels {context other : Context} (file : context.file = other.file)
    (text : context.text = other.text) (call : Call) (body : Expr)
    (offender otherOffender type : TypeId) :
    (context.diagnose call body offender type).Relabels
      (other.diagnose call body otherOffender type) := by
  have quoted : context.quote call = other.quote call := by rw [quote, quote, text]
  simp only [Diagnostic.Relabels, diagnose, Code.warning, quoted, file, List.nil_append,
    List.map_cons, List.map_nil, and_self]

namespace Config.Covers

variable {wide narrow : Config} {model : Model} {file : FileId} {text : Option String} {call : Call}
  {method : String} {body : Expr} {type : TypeId}

theorem operatorShaped (covers : wide.Covers narrow) (shaped : call.OperatorShaped narrow) :
    call.OperatorShaped wide := by
  cases shaped with
  | bare callee recognized => exact .bare callee (covers.operators _ recognized)
  | named callee recognized => exact .named callee (covers.operators _ recognized)
  | ofIdentifier callee recognized => exact .ofIdentifier callee (covers.operators _ recognized)
  | ofMember callee recognized => exact .ofMember callee (covers.operators _ recognized)

theorem isCandidate (covers : wide.Covers narrow) (candidate : call.isCandidate narrow = true) :
    call.isCandidate wide = true :=
  Call.isCandidate_iff.mpr (covers.operatorShaped (Call.isCandidate_iff.mp candidate))

theorem projects (covers : wide.Covers narrow)
    (projects : Context.Projects ⟨narrow, model, file, text⟩ call method body type) :
    Context.Projects ⟨wide, model, file, text⟩ call method body type := by
  obtain ⟨resolved, remote, first, lambda, typed⟩ := projects
  exact .intro resolved (covers.family _ remote) first lambda typed

theorem carries (covers : wide.Covers narrow)
    (carries : Context.Carries ⟨wide, model, file, text⟩ type) :
    Context.Carries ⟨narrow, model, file, text⟩ type :=
  carries.mono covers.depth

/-- What is found at a call is found by the wider configuration too, though it may blame another
type. -/
theorem finding? (covers : wide.Covers narrow) {diagnostic : Diagnostic}
    (found : Context.finding? ⟨narrow, model, file, text⟩ call = some diagnostic) :
    ∃ other, Context.finding? ⟨wide, model, file, text⟩ call = some other ∧
      diagnostic.Relabels other := by
  have finds := Context.finds_finding? ⟨narrow, model, file, text⟩ call
  have wideFinds := Context.finds_finding? ⟨wide, model, file, text⟩ call
  rw [found] at finds
  generalize outcome : Context.finding? ⟨wide, model, file, text⟩ call = wideFound at wideFinds
  cases finds with
  | refused projects refused faults =>
    cases wideFinds with
    | refused wideProjects wideRefused wideFaults =>
      obtain ⟨rfl, rfl, rfl⟩ := (covers.projects projects).unique wideProjects
      exact ⟨_, rfl, Context.diagnose_relabels rfl rfl _ _ _ _ _⟩
    | nothing carried =>
      exact absurd (covers.carries (carried _ _ _ (covers.projects projects))) refused

end Config.Covers

namespace Pass

/-- A check under a configuration that covers another one settles every site that a check under the
other one settles, and reports every site that it reports, at the same place and with the same
message. Neither check is cancelled; each has a log, and it does not matter which. -/
theorem checkUnit_covers (narrow wide : Config) (model : Model) (unit : SourceUnit)
    (flag wideFlag : Cancellation) (covers : wide.Covers narrow)
    (uncancelled : (checkUnit narrow model flag unit).summary.cancelled = false)
    (wideUncancelled : (checkUnit wide model wideFlag unit).summary.cancelled = false) :
    (∃ log, Logs narrow model flag unit log) ∧ (∃ wideLog, Logs wide model wideFlag unit wideLog) ∧
      ∀ log wideLog, Logs narrow model flag unit log → Logs wide model wideFlag unit wideLog →
        ∀ site found, (site, found) ∈ log → ∃ wideFound, (site, wideFound) ∈ wideLog ∧
          ∀ diagnostic ∈ found, ∃ other ∈ wideFound, diagnostic.Relabels other := by
  refine ⟨⟨_, logs_uncancelled uncancelled⟩, ⟨_, logs_uncancelled wideUncancelled⟩, ?_⟩
  intro log wideLog logs wideLogs site found listed
  obtain ⟨isSite, rfl⟩ := (logs.mem_iff uncancelled).mp listed
  obtain ⟨placed, candidate⟩ := mem_sitesOf.mp isSite
  have wideSite : site ∈ sitesOf wide unit.roots :=
    mem_sitesOf.mpr ⟨placed, covers.isCandidate candidate⟩
  refine ⟨_, (wideLogs.mem_iff wideUncancelled).mpr ⟨wideSite, rfl⟩, ?_⟩
  intro diagnostic isFound
  obtain ⟨other, wideFound, relabels⟩ := covers.finding? (Option.mem_toList.mp isFound)
  exact ⟨other, Option.mem_toList.mpr wideFound, relabels⟩

/-- A query for whole orders on a call that names an operator by its receiver only. -/
def rowsQuery : Expr :=
  .call ⟨{}, ⟨{}, { symbol := some (.method "Where" (some "System.Linq.Queryable")) }⟩⟩
    (.member {} (.call {} (.member {} (.identifier {} "Select") "Rows") []) "Where")
    [{ value := .lambda {} ["o"] (.identifier ⟨⟨{}, { convertedType := some ⟨19⟩ }⟩, {}⟩ "o") }]

/-- Once `Rows` is an operator too, its call is settled before the call around it and no longer
after it. -/
theorem checkUnit_covers_rows :
    let wide : Config := ⟨Config.defaultOperators.insert "Rows", .startingWith "System.Linq", 1⟩
    let model : Model := .ofFacts (Store.empty.named "Order").2
    let unit : SourceUnit := ⟨⟨0⟩, none, [rowsQuery]⟩
    (wide.Covers .default ∧
        (checkUnit .default model (.showing (2 ≤ ·)) unit).summary.cancelled = false ∧
        (checkUnit wide model .never unit).summary.cancelled = false) ∧
      (∃ log, Logs .default model (.showing (2 ≤ ·)) unit log) ∧
      (∃ wideLog, Logs wide model .never unit wideLog) ∧
      ∀ log wideLog, Logs .default model (.showing (2 ≤ ·)) unit log →
        Logs wide model .never unit wideLog →
        ∀ site found, (site, found) ∈ log → ∃ wideFound, (site, wideFound) ∈ wideLog ∧
          ∀ diagnostic ∈ found, ∃ other ∈ wideFound, diagnostic.Relabels other := by
  intro wide model unit
  have covers : wide.Covers .default := by
    refine ⟨?_, ?_, by decide⟩
    · intro name recognized
      simp only [Config.isOperator, Names.contains, List.contains_iff_mem] at recognized ⊢
      exact mem_insertName.mpr (.inr recognized)
    · intro type remote
      have shorter : "System.Linq".toList <+: "System.Linq.Queryable".toList := by decide
      exact List.isPrefixOf_iff_prefix.mpr (shorter.trans (List.isPrefixOf_iff_prefix.mp remote))
  have uncancelled :
      (checkUnit .default model (.showing (2 ≤ ·)) unit).summary.cancelled = false := by cbv
  have wideUncancelled : (checkUnit wide model .never unit).summary.cancelled = false := by cbv
  exact ⟨⟨covers, uncancelled, wideUncancelled⟩,
    checkUnit_covers .default wide model unit _ _ covers uncancelled wideUncancelled⟩

end Pass
end QueryAudit
