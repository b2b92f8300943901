import Mathlib.Data.List.Nodup
import QueryAudit.Proofs.IndependentRoots

/-! What a pass tells about each site. To settle a call is to ask the model about it, and what is
found at a call is reported before the next one is settled; so the events of a pass say which calls
were settled, in which order, and with which outcome. Together with the numbers that a pass marks
this makes a log of the pass. -/
namespace QueryAudit

namespace Event

/-- The call that is asked about, or the diagnostic that is reported. -/
def told? : Event → Option (Call ⊕ Diagnostic)
  | askedSymbol call => some (.inl call)
  | reported diagnostic => some (.inr diagnostic)
  | _ => none

/-- The diagnostics before the next call. -/
def leading : List (Call ⊕ Diagnostic) → List Diagnostic
  | .inr diagnostic :: rest => diagnostic :: leading rest
  | _ => []

/-- The calls in order, each with the diagnostics up to the next one. -/
def grouped : List (Call ⊕ Diagnostic) → List (Call × List Diagnostic)
  | [] => []
  | .inl call :: rest => (call, leading rest) :: grouped rest
  | .inr _ :: rest => grouped rest

/-- The calls that were settled, in order, each with what was found at it. -/
def outcomes (events : List Event) : List (Call × List Diagnostic) :=
  grouped (events.filterMap told?)

theorem leading_append (found : List Diagnostic) (rest : List (Call ⊕ Diagnostic)) :
    leading (found.map .inr ++ rest) = found ++ leading rest := by
  induction found with
  | nil => rfl
  | cons diagnostic found ih => exact congrArg (diagnostic :: ·) ih

theorem grouped_append (found : List Diagnostic) (rest : List (Call ⊕ Diagnostic)) :
    grouped (found.map .inr ++ rest) = grouped rest := by
  induction found with
  | nil => rfl
  | cons diagnostic found ih => exact ih

/-- What is told call by call is grouped call by call. -/
theorem grouped_flatMap {α : Type} (items : List α) (call : α → Call)
    (found : α → List Diagnostic) :
    grouped (items.flatMap fun item => .inl (call item) :: (found item).map .inr) =
      items.map fun item => (call item, found item) := by
  induction items with
  | nil => rfl
  | cons item rest ih =>
    have next : leading (rest.flatMap fun item => .inl (call item) :: (found item).map .inr) = [] := by
      cases rest <;> rfl
    rw [List.flatMap_cons, List.cons_append, grouped, leading_append, grouped_append, next, ih,
      List.append_nil]
    rfl

theorem told_of_unasked {events : List Event} (unasked : askedCalls events = []) :
    events.filterMap told? = (diagnostics events).map .inr := by
  induction events with
  | nil => rfl
  | cons event rest ih =>
    cases event with
    | askedSymbol call => cases unasked
    | askedType | traced => exact ih unasked
    | reported diagnostic => exact congrArg (.inr diagnostic :: ·) (ih unasked)

end Event

namespace Context

/-- The classifier asks about the call it is given before anything else happens. -/
theorem classify_asks_first (context : Context) (memo : Evaluability.Memo) (call : Call) :
    ∃ rest, (context.classify memo call).2.1 = .askedSymbol call :: rest := by
  unfold classify
  split
  · split
    · split
      · exact ⟨_, rfl⟩
      · split
        · split <;> exact ⟨_, rfl⟩
        · exact ⟨_, rfl⟩
    · exact ⟨_, rfl⟩
  · exact ⟨_, rfl⟩
  · exact ⟨_, rfl⟩

end Context

namespace Pass

variable {config : Config} {model : Model} {flag : Cancellation} {unit : SourceUnit}

theorem shows_told (context : Context) :
    Shows context Event.told? fun call => .inl call :: (context.finding? call).toList.map .inr := by
  intro memo sound call
  obtain ⟨rest, events⟩ := context.classify_asks_first memo call
  have asked := context.askedCalls_classify memo call
  have found := (context.classify_finding sound call).1
  rw [events] at asked found ⊢
  have unasked : Event.askedCalls rest = [] := (List.cons.inj asked).2
  have told := Event.told_of_unasked unasked
  have foundRest : Event.diagnostics rest = (context.finding? call).toList := found
  rw [foundRest] at told
  exact congrArg (.inl call :: ·) told

/-- Under any flag, the events of a check tell about some calls, and what there is to find at
them. -/
theorem exists_outcomes (config : Config) (model : Model) (flag : Cancellation)
    (unit : SourceUnit) :
    let context : Context := ⟨config, model, unit.file, unit.text⟩
    ∃ sites : List Site,
      Event.outcomes (checkUnit config model flag unit).events =
          sites.map (fun site => (site.1, (context.finding? site.1).toList)) ∧
        (checkUnit config model flag unit).diagnostics =
          sites.flatMap fun site => (context.finding? site.1).toList := by
  intro context
  let calls := Expr.childCalls unit.roots
  obtain ⟨count, halts⟩ := exists_haltsAt context flag calls
  have settles {α : Type} {view : Event → Option α} {shown : Call → List α}
      (shows : Shows context view shown) :
      Settles context view shown {} (sitesUpTo config calls count) (upTo context calls count) :=
    visitAll_settles shows (calls.take count) context.trusts_empty rfl (by simp) (by simp)
  refine ⟨sitesUpTo config calls count, ?_, ?_⟩
  · rw [Event.outcomes, events_checkUnit (fun _ => rfl), halts.events,
      (settles (shows_told context)).shown, Event.grouped_flatMap]
  · rw [Report.diagnostics, Event.diagnostics, events_checkUnit (fun _ => rfl), halts.events,
      (settles (shows_diagnostics context)).shown]

/-- A log of a check: the sites it settled, in order and each with what was found at it. The sites
are calls of the unit under their numbers, which are the numbers that are marked as settled in the
end, each once; the calls with their findings are what the events tell; and the summary counts the
sites and those at which something was found. -/
structure Logs (config : Config) (model : Model) (flag : Cancellation) (unit : SourceUnit)
    (log : List (Site × List Diagnostic)) : Prop where
  placed : ∀ site found, (site, found) ∈ log →
    (Expr.childCalls unit.roots)[site.2]? = some site.1
  once : (log.map fun entry => entry.1.2).Nodup
  marked : ∀ number, number ∈ log.map (fun entry => entry.1.2) ↔
    (visitAll ⟨config, model, unit.file, unit.text⟩ flag {} 0
      (Expr.childCalls unit.roots)).2.settled.contains number = true
  told : Event.outcomes (checkUnit config model flag unit).events =
    log.map fun entry => (entry.1.1, entry.2)
  counted : (checkUnit config model flag unit).summary =
    ⟨log.length, log.countP fun entry => !entry.2.isEmpty, false⟩

/-- The sites of a pass with what there is to find at them. -/
def logOf (config : Config) (model : Model) (unit : SourceUnit) : List (Site × List Diagnostic) :=
  (sitesOf config unit.roots).map fun site =>
    (site, ((⟨config, model, unit.file, unit.text⟩ : Context).finding? site.1).toList)

/-- Under one number there is one call. -/
theorem site_eq_of_number {calls : List Call} {site other : Site}
    (placed : calls[site.2]? = some site.1) (otherPlaced : calls[other.2]? = some other.1)
    (same : other.2 = site.2) : other = site := by
  rw [same, placed] at otherPlaced
  exact Prod.ext (Option.some.inj otherPlaced).symm same

theorem sitesOf_numbers_nodup (config : Config) (roots : List Expr) :
    ((sitesOf config roots).map Prod.snd).Nodup := by
  refine List.Nodup.map_on ?_ (sitesOf_nodup config roots)
  intro site listed other otherListed same
  exact site_eq_of_number (mem_sitesOf.mp otherListed).1 (mem_sitesOf.mp listed).1 same

theorem logOf_numbers (config : Config) (model : Model) (unit : SourceUnit) :
    (logOf config model unit).map (fun entry => entry.1.2) =
      (sitesOf config unit.roots).map Prod.snd := by
  rw [logOf, List.map_map]
  rfl

theorem logs_never (config : Config) (model : Model) (unit : SourceUnit) :
    Logs config model .never unit (logOf config model unit) := by
  let context : Context := ⟨config, model, unit.file, unit.text⟩
  let calls := Expr.childCalls unit.roots
  have settles : Settles context Event.told?
      (fun call => .inl call :: (context.finding? call).toList.map .inr) {}
      (sitesOf config unit.roots) (visitAll context .never {} 0 calls) :=
    visitAll_settles (shows_told context) calls context.trusts_empty rfl (by simp) (by simp)
  refine ⟨?_, ?_, ?_, ?_, ?_⟩
  · rintro ⟨call, number⟩ found listed
    obtain ⟨site, isSite, same⟩ := List.mem_map.mp listed
    cases same
    exact (mem_sitesOf.mp isSite).1
  · rw [logOf_numbers]
    exact sitesOf_numbers_nodup config unit.roots
  · intro number
    rw [logOf_numbers]
    exact ((visitAll_asks context calls).2.2 number).symm
  · rw [Event.outcomes, events_checkUnit (fun _ => rfl), settles.shown, Event.grouped_flatMap, logOf,
      List.map_map]
    rfl
  · rw [(checkUnit_settles config model unit).2, logOf, List.length_map, List.countP_map]
    congr 2
    funext site
    simp only [Function.comp_apply]
    cases context.finding? site.1 <;> rfl

/-- A check that is not cancelled has the log of one without a flag. -/
theorem logs_uncancelled
    (uncancelled : (checkUnit config model flag unit).summary.cancelled = false) :
    Logs config model flag unit (logOf config model unit) := by
  have logs := logs_never config model unit
  let context : Context := ⟨config, model, unit.file, unit.text⟩
  have visits : visitAll context flag {} 0 (Expr.childCalls unit.roots) =
      visitAll context .never {} 0 (Expr.childCalls unit.roots) := visitAll_uncancelled uncancelled
  have same := checkUnit_uncancelled uncancelled
  refine ⟨logs.placed, logs.once, ?_, ?_, ?_⟩
  · rw [visits]
    exact logs.marked
  · rw [same]
    exact logs.told
  · rw [same]
    exact logs.counted

/-- A check has one log but for the order of equal calls: its entries are the sites of the unit with
what there is to find at them. -/
theorem Logs.mem_iff {log : List (Site × List Diagnostic)} (logs : Logs config model flag unit log)
    (uncancelled : (checkUnit config model flag unit).summary.cancelled = false)
    {site : Site} {found : List Diagnostic} :
    (site, found) ∈ log ↔ site ∈ sitesOf config unit.roots ∧
      found = ((⟨config, model, unit.file, unit.text⟩ : Context).finding? site.1).toList := by
  let context : Context := ⟨config, model, unit.file, unit.text⟩
  have known := logs_uncancelled uncancelled
  have numbers (number : Nat) : number ∈ log.map (fun entry => entry.1.2) ↔
      number ∈ (sitesOf config unit.roots).map Prod.snd := by
    rw [logs.marked, ← known.marked, logOf_numbers]
  -- equal calls are told with equal findings, so what is told about a call is what there is to find
  have told : ∀ site found, (site, found) ∈ log → found = (context.finding? site.1).toList := by
    intro site found listed
    have isTold : (site.1, found) ∈ log.map fun entry => (entry.1.1, entry.2) :=
      List.mem_map.mpr ⟨(site, found), listed, rfl⟩
    rw [← logs.told, known.told, logOf, List.map_map] at isTold
    obtain ⟨other, _, same⟩ := List.mem_map.mp isTold
    obtain ⟨sameCall, sameFound⟩ := Prod.mk.inj same
    rw [← sameFound, ← sameCall]
  constructor
  · intro listed
    have isNumber : site.2 ∈ log.map fun entry => entry.1.2 :=
      List.mem_map.mpr ⟨(site, found), listed, rfl⟩
    obtain ⟨other, isSite, sameNumber⟩ := List.mem_map.mp ((numbers site.2).mp isNumber)
    have same : other = site :=
      site_eq_of_number (logs.placed site found listed) (mem_sitesOf.mp isSite).1 sameNumber
    exact ⟨same ▸ isSite, told site found listed⟩
  · rintro ⟨isSite, rfl⟩
    have isNumber : site.2 ∈ (sitesOf config unit.roots).map Prod.snd :=
      List.mem_map.mpr ⟨site, isSite, rfl⟩
    obtain ⟨⟨other, otherFound⟩, listed, sameNumber⟩ :=
      List.mem_map.mp ((numbers site.2).mpr isNumber)
    have same : other = site :=
      site_eq_of_number (mem_sitesOf.mp isSite).1 (logs.placed other otherFound listed) sameNumber
    subst same
    rw [← told other otherFound listed]
    exact listed

end Pass
end QueryAudit
