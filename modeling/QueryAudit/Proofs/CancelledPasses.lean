import Mathlib.Data.Nat.Find
import QueryAudit.Proofs.SettledOnce

/-! Passes under a cancellation flag. The flag is read once at every call that is visited, until a
reading shows it set. Up to that reading a pass does what a pass without a flag does; after it, the
pass does nothing. So a cancelled pass is a prefix of the full one. It need not stop right after the
call-site during which the flag was set: a call and the receiver it is chained to are settled
between two readings. -/
namespace QueryAudit

namespace Cancellation

/-- The flag that shows given values at its successive readings. -/
def showing (values : Nat → Bool) : Cancellation :=
  fun progress => values progress.readings

end Cancellation

namespace Pass

variable {context : Context} {flag : Cancellation} {state : State} {number : Nat} {call : Call}
  {calls : List Call} {count : Nat}

/-! ## One visit -/

/-- The state after a reading that shows the flag set. -/
def State.stop (state : State) : State :=
  { state with readings := state.readings + 1, cancelled := true }

theorem visit_cancelled (cancelled : state.cancelled = true) :
    visit context flag state number call = ([], state) := by
  simp [visit, cancelled]

theorem visit_set (running : state.cancelled = false) (set : flag state.progress = true) :
    visit context flag state number call = ([], state.stop) := by
  simp [visit, running, set, State.stop]

/-- A reading that shows the flag unset makes no difference. -/
theorem visit_unset (running : state.cancelled = false) (unset : flag state.progress = false) :
    visit context flag state number call = visit context .never state number call := by
  simp [visit, running, unset, Cancellation.never]

/-- Settling a call reads no flag. -/
theorem settle_frame (context : Context) (state : State) (number : Nat) (call : Call) :
    (settle context state number call).2.cancelled = state.cancelled ∧
      (settle context state number call).2.readings = state.readings := by
  unfold settle
  split
  · exact ⟨rfl, rfl⟩
  · exact ⟨rfl, rfl⟩

theorem settleSite_frame (context : Context) (state : State) (number : Nat) (call : Call) :
    (settleSite context state number call).2.cancelled = state.cancelled ∧
      (settleSite context state number call).2.readings = state.readings := by
  have receiver : (settleReceiver context state number call).2.cancelled = state.cancelled ∧
      (settleReceiver context state number call).2.readings = state.readings := by
    unfold settleReceiver
    split
    · exact settle_frame ..
    · exact ⟨rfl, rfl⟩
  rw [settleSite_halves]
  unfold settleOwn
  split
  · obtain ⟨cancelled, readings⟩ :=
      settle_frame context (settleReceiver context state number call).2 number call
    exact ⟨cancelled.trans receiver.1, readings.trans receiver.2⟩
  · exact receiver

/-- A visit without a flag is a reading after which the pass goes on. -/
theorem visit_never_frame (running : state.cancelled = false) :
    (visit context .never state number call).2.cancelled = false ∧
      (visit context .never state number call).2.readings = state.readings + 1 := by
  obtain ⟨cancelled, readings⟩ :=
    settleSite_frame context { state with readings := state.readings + 1 } number call
  rw [visit_never running]
  exact ⟨cancelled.trans running, readings⟩

/-! ## A run of visits -/

theorem visitAll_append (context : Context) (flag : Cancellation) (state : State) (number : Nat)
    (left right : List Call) :
    visitAll context flag state number (left ++ right) =
      let first := visitAll context flag state number left
      let second := visitAll context flag first.2 (number + left.length) right
      (first.1 ++ second.1, second.2) := by
  induction left generalizing state number with
  | nil => rfl
  | cons call rest ih =>
    simp only [List.cons_append, visitAll_cons, ih, List.append_assoc, List.length_cons,
      Nat.add_assoc, Nat.add_comm 1]

theorem visitAll_cancelled (cancelled : state.cancelled = true) (calls : List Call) :
    visitAll context flag state number calls = ([], state) := by
  induction calls generalizing number with
  | nil => rfl
  | cons call rest ih => simp only [visitAll_cons, visit_cancelled cancelled, ih, List.nil_append]

theorem visitAll_never_frame (running : state.cancelled = false) (calls : List Call) :
    (visitAll context .never state number calls).2.cancelled = false ∧
      (visitAll context .never state number calls).2.readings = state.readings + calls.length := by
  induction calls generalizing state number with
  | nil => exact ⟨running, rfl⟩
  | cons call rest ih =>
    obtain ⟨runningAfter, readings⟩ := visit_never_frame running
    obtain ⟨runningLast, readingsLast⟩ := ih runningAfter
    rw [visitAll_cons]
    refine ⟨runningLast, readingsLast.trans ?_⟩
    rw [readings, List.length_cons, Nat.add_right_comm, Nat.add_assoc]

/-- What a pass without a flag has done when `count` calls have been visited. -/
def upTo (context : Context) (calls : List Call) (count : Nat) : List Event × State :=
  visitAll context .never {} 0 (calls.take count)

theorem upTo_running (context : Context) (calls : List Call) (count : Nat) :
    (upTo context calls count).2.cancelled = false :=
  (visitAll_never_frame rfl _).1

theorem upTo_readings (within : count ≤ calls.length) :
    (upTo context calls count).2.readings = count := by
  rw [upTo, (visitAll_never_frame rfl _).2, List.length_take_of_le within]
  exact Nat.zero_add count

theorem upTo_length (context : Context) (calls : List Call) :
    upTo context calls calls.length = visitAll context .never {} 0 calls := by
  rw [upTo, List.take_length]

/-- The events up to some visit are the first events of the full pass. -/
theorem prefix_upTo (context : Context) (calls : List Call) (count : Nat) :
    (upTo context calls count).1 <+: (visitAll context .never {} 0 calls).1 := by
  have split := visitAll_append context .never {} 0 (calls.take count) (calls.drop count)
  rw [List.take_append_drop] at split
  rw [split]
  exact List.prefix_append _ _

theorem showing_upTo (values : Nat → Bool) (within : count ≤ calls.length) :
    Cancellation.showing values (upTo context calls count).2.progress = values count :=
  congrArg values (upTo_readings within)

/-- How far a pass under a flag gets: `count` readings show the flag unset, and the next, if there
is another call, shows it set. -/
structure HaltsAt (context : Context) (flag : Cancellation) (calls : List Call) (count : Nat) :
    Prop where
  within : count ≤ calls.length
  unset : ∀ earlier < count, flag (upTo context calls earlier).2.progress = false
  set : count < calls.length → flag (upTo context calls count).2.progress = true

theorem exists_haltsAt (context : Context) (flag : Cancellation) (calls : List Call) :
    ∃ count, HaltsAt context flag calls count := by
  classical
  by_cases seen : ∃ count < calls.length, flag (upTo context calls count).2.progress = true
  · have first := Nat.find_spec seen
    refine ⟨Nat.find seen, Nat.le_of_lt first.1, ?_, fun _ => first.2⟩
    intro earlier before
    have unseen := Nat.find_min seen before
    simpa [Nat.lt_trans before first.1] using unseen
  · refine ⟨calls.length, Nat.le_refl _, ?_, fun less => absurd less (Nat.lt_irrefl _)⟩
    intro earlier before
    rw [← Bool.not_eq_true]
    exact fun set => seen ⟨earlier, before, set⟩

namespace HaltsAt

/-- As long as no reading shows the flag set, a pass goes on as without it. -/
theorem visitAll_take (halts : HaltsAt context flag calls count) {visited : Nat}
    (upto : visited ≤ count) :
    visitAll context flag {} 0 (calls.take visited) = upTo context calls visited := by
  induction visited with
  | zero => rfl
  | succ visited ih =>
    have inside : visited < calls.length := Nat.lt_of_lt_of_le upto halts.within
    have before := ih (Nat.le_of_succ_le upto)
    have next : calls.take (visited + 1) = calls.take visited ++ [calls[visited]] :=
      List.take_succ_eq_append_getElem inside
    -- both passes are in one state here, so `unset` speaks of the reading that is made next
    have unset := halts.unset visited upto
    have running := upTo_running context calls visited
    rw [upTo, next, visitAll_append, visitAll_append, before]
    rw [upTo] at unset running ⊢
    simp only [visitAll_cons, visit_unset running unset]
    rfl

/-- A pass does nothing after the first reading that shows the flag set. -/
theorem visitAll_eq (halts : HaltsAt context flag calls count) :
    visitAll context flag {} 0 calls =
      if count < calls.length then
        ((upTo context calls count).1, (upTo context calls count).2.stop)
      else upTo context calls count := by
  have split := visitAll_append context flag {} 0 (calls.take count) (calls.drop count)
  rw [List.take_append_drop, halts.visitAll_take (Nat.le_refl _)] at split
  rw [split]
  by_cases more : count < calls.length
  · have stopped : (upTo context calls count).2.stop.cancelled = true := rfl
    rw [List.drop_eq_getElem_cons more]
    simp only [visitAll_cons, visit_set (upTo_running context calls count) (halts.set more),
      visitAll_cancelled stopped, List.append_nil, more, ↓reduceIte]
  · rw [List.drop_eq_nil_of_le (Nat.le_of_not_lt more)]
    simp [more, visitAll]

theorem events (halts : HaltsAt context flag calls count) :
    (visitAll context flag {} 0 calls).1 = (upTo context calls count).1 := by
  rw [halts.visitAll_eq]
  split <;> rfl

theorem settled (halts : HaltsAt context flag calls count) :
    (visitAll context flag {} 0 calls).2.settled = (upTo context calls count).2.settled := by
  rw [halts.visitAll_eq]
  split <;> rfl

theorem cancelled_iff (halts : HaltsAt context flag calls count) :
    (visitAll context flag {} 0 calls).2.cancelled = true ↔ count < calls.length := by
  rw [halts.visitAll_eq]
  split
  · next more => exact ⟨fun _ => more, fun _ => rfl⟩
  · next last => simp [upTo_running, last]

/-- A pass makes one reading for each call it visits, and the one that stops it. -/
theorem readings (halts : HaltsAt context flag calls count) :
    (visitAll context flag {} 0 calls).2.readings =
      if count < calls.length then count + 1 else count := by
  rw [halts.visitAll_eq]
  split
  · exact congrArg (· + 1) (upTo_readings halts.within)
  · exact upTo_readings halts.within

theorem readings_le (halts : HaltsAt context flag calls count) :
    (visitAll context flag {} 0 calls).2.readings ≤ calls.length := by
  rw [halts.readings]
  split
  · next more => exact more
  · exact halts.within

/-- A reading that shows the flag set is the one that stops the pass. -/
theorem eq_of_set (halts : HaltsAt context flag calls count) {reading : Nat}
    (made : reading < (visitAll context flag {} 0 calls).2.readings)
    (set : flag (upTo context calls reading).2.progress = true) :
    reading = count ∧ count < calls.length := by
  have late : ¬ reading < count := by
    intro before
    cases set.symm.trans (halts.unset reading before)
  rw [halts.readings] at made
  split at made
  · next more => exact ⟨by omega, more⟩
  · omega

end HaltsAt

/-! ## The sites that a cancelled pass settles -/

/-- The sites that are settled during the first `count` visits. -/
def sitesUpTo (config : Config) (calls : List Call) (count : Nat) : List Site :=
  settleOrder config false 0 (calls.take count)

/-- A pass under a flag asks about the sites of its visits, and marks them as settled. -/
theorem HaltsAt.asks (halts : HaltsAt context flag calls count) :
    let sites := sitesUpTo context.config calls count
    let visited := visitAll context flag {} 0 calls
    Event.askedCalls visited.1 = sites.map Prod.fst ∧
      visited.2.settled.size = sites.length ∧
      ∀ number, visited.2.settled.contains number = true ↔ number ∈ sites.map Prod.snd := by
  intro sites visited
  have asks := visitAll_asks context (calls.take count)
  rw [show visited.1 = (upTo context calls count).1 from halts.events,
    show visited.2.settled = (upTo context calls count).2.settled from halts.settled]
  exact asks

/-- Visits of some calls and then of others settle their sites one after the other. -/
theorem settleOrder_append (config : Config) (settled : Bool) (number : Nat) (left : List Call) :
    ∃ marked, ∀ right, settleOrder config settled number (left ++ right) =
      settleOrder config settled number left ++
        settleOrder config marked (number + left.length) right := by
  induction left generalizing settled number with
  | nil => exact ⟨settled, fun right => rfl⟩
  | cons call rest ih =>
    obtain ⟨marked, appended⟩ := ih (call.chained? config).isSome (number + 1)
    refine ⟨marked, fun right => ?_⟩
    simp only [List.cons_append, settleOrder, appended, List.append_assoc, List.length_cons,
      Nat.add_assoc, Nat.add_comm 1]

/-- The sites of all visits are those of the first ones and then those of the others. -/
theorem sitesUpTo_split (config : Config) (within : count ≤ calls.length) :
    ∃ marked, settleOrder config false 0 calls =
      sitesUpTo config calls count ++ settleOrder config marked count (calls.drop count) := by
  obtain ⟨marked, appended⟩ := settleOrder_append config false 0 (calls.take count)
  have split := appended (calls.drop count)
  rw [List.take_append_drop, List.length_take_of_le within, Nat.zero_add] at split
  exact ⟨marked, split⟩

theorem prefix_sitesUpTo (config : Config) (within : count ≤ calls.length) :
    sitesUpTo config calls count <+: settleOrder config false 0 calls := by
  obtain ⟨marked, split⟩ := sitesUpTo_split config within
  rw [split]
  exact List.prefix_append _ _

/-- One more visit settles the sites of one more call. -/
theorem sitesUpTo_succ (config : Config) (inside : count < calls.length) :
    ∃ marked, sitesUpTo config calls (count + 1) =
      sitesUpTo config calls count ++ siteOrder config marked count calls[count] := by
  obtain ⟨marked, appended⟩ := settleOrder_append config false 0 (calls.take count)
  have split := appended [calls[count]]
  rw [← List.take_succ_eq_append_getElem inside, List.length_take_of_le (Nat.le_of_lt inside),
    Nat.zero_add, settleOrder, settleOrder, List.append_nil] at split
  exact ⟨marked, split⟩

theorem siteOrder_bounds {config : Config} {settled : Bool} {site : Site}
    (listed : site ∈ siteOrder config settled number call) :
    number ≤ site.2 ∧ site.2 ≤ number + 1 := by
  rcases List.mem_append.mp listed with chained | own
  · obtain ⟨receiver, _, rfl⟩ := List.mem_map.mp chained
    exact ⟨Nat.le_succ number, Nat.le_refl _⟩
  · split at own
    · cases List.mem_singleton.mp own
      exact ⟨Nat.le_refl number, Nat.le_succ number⟩
    · cases own

/-- A site is settled when its call is visited or the one before it. -/
theorem settleOrder_bounds {config : Config} {settled : Bool} {site : Site}
    (listed : site ∈ settleOrder config settled number calls) :
    number ≤ site.2 ∧ site.2 ≤ number + calls.length := by
  induction calls generalizing settled number with
  | nil => cases listed
  | cons call rest ih =>
    rw [List.length_cons]
    rcases List.mem_append.mp listed with first | later
    · obtain ⟨low, high⟩ := siteOrder_bounds first
      omega
    · obtain ⟨low, high⟩ := ih later
      omega

/-! ## A flag that is set by the pass itself -/

/-- The site at which a limit is reached is the receiver that the next site is chained to. -/
def Straddles (config : Config) (sites : List Site) (limit : Nat) : Prop :=
  ∃ earlier later receiver call number, call.chained? config = some receiver ∧
    earlier.length + 1 = limit ∧
    sites = earlier ++ (receiver, number + 1) :: (call, number) :: later

/-- A visit that settles two sites settles a receiver and the call that is chained to it. -/
theorem siteOrder_two {config : Config} {settled : Bool}
    (two : 2 ≤ (siteOrder config settled number call).length) :
    ∃ receiver, call.chained? config = some receiver ∧
      siteOrder config settled number call = [(receiver, number + 1), (call, number)] := by
  unfold siteOrder at two ⊢
  cases chained : call.chained? config with
  | none =>
    rw [chained] at two
    split at two <;> simp at two
  | some receiver =>
    rw [chained] at two
    split at two
    · next own => exact ⟨receiver, rfl, by simp [own]⟩
    · simp at two

theorem siteOrder_length (config : Config) (settled : Bool) (number : Nat) (call : Call) :
    (siteOrder config settled number call).length ≤ 2 := by
  unfold siteOrder
  cases call.chained? config <;> split <;> simp

/-- A visit that takes a pass past a limit settles the site at the limit and the next one. -/
theorem straddles_of_lt {config : Config} {limit : Nat} (within : count ≤ calls.length)
    (short : ∀ earlier < count, (sitesUpTo config calls earlier).length < limit)
    (beyond : limit < (sitesUpTo config calls count).length) :
    (sitesUpTo config calls count).length = limit + 1 ∧
      Straddles config (settleOrder config false 0 calls) limit := by
  cases count with
  | zero => exact absurd beyond (Nat.not_lt_zero limit)
  | succ visited =>
    obtain ⟨marked, grown⟩ := sitesUpTo_succ config within
    have before := short visited (Nat.lt_succ_self visited)
    have most := siteOrder_length config marked visited calls[visited]
    have length := congrArg List.length grown
    rw [List.length_append] at length
    -- from below the limit to beyond it in one visit takes two sites, and a visit has no more
    obtain ⟨receiver, chained, sites⟩ :=
      siteOrder_two (show 2 ≤ (siteOrder config marked visited calls[visited]).length by omega)
    obtain ⟨last, split⟩ := sitesUpTo_split config within
    refine ⟨by omega, sitesUpTo config calls visited,
      settleOrder config last (visited + 1) (calls.drop (visited + 1)), receiver, calls[visited],
      visited, chained, by omega, ?_⟩
    rw [split, grown, sites, List.append_assoc]
    rfl

/-- Between two visits no two sites belong together. -/
theorem not_straddles_sitesUpTo {config : Config} (within : count ≤ calls.length) :
    ¬ Straddles config (settleOrder config false 0 calls)
      (sitesUpTo config calls count).length := by
  rintro ⟨earlier, later, receiver, call, number, _, length, sites⟩
  obtain ⟨marked, split⟩ := sitesUpTo_split config within
  have joined : sitesUpTo config calls count ++ settleOrder config marked count (calls.drop count) =
      (earlier ++ [(receiver, number + 1)]) ++ (call, number) :: later := by
    rw [← split, sites, List.append_assoc]
    rfl
  obtain ⟨done, pending⟩ := List.append_inj joined (by simp [length])
  -- a receiver that is done has been visited or comes next, and a pending call comes later
  have receiverDone : (receiver, number + 1) ∈ sitesUpTo config calls count := by simp [done]
  have callPending : (call, number) ∈ settleOrder config marked count (calls.drop count) := by
    simp [pending]
  have high : number + 1 ≤ 0 + (calls.take count).length := (settleOrder_bounds receiverDone).2
  have low : count ≤ number := (settleOrder_bounds callPending).1
  rw [List.length_take_of_le within] at high
  omega

theorem after_upTo (context : Context) (calls : List Call) (limit count : Nat) :
    Cancellation.after limit 0 (upTo context calls count).2.progress =
      decide (limit ≤ (sitesUpTo context.config calls count).length) := by
  obtain ⟨_, size, _⟩ := visitAll_asks context (calls.take count)
  simp only [Cancellation.after, decide_eq_decide, Nat.zero_add]
  exact Iff.of_eq (congrArg (limit ≤ ·) size)

/-- A flag that is set when a number of sites have been settled lets exactly these be settled, and
one more if they end with a receiver that the next site is chained to. -/
theorem HaltsAt.length_after {limit : Nat}
    (halts : HaltsAt context (.after limit 0) calls count) :
    let sites := settleOrder context.config false 0 calls
    (Straddles context.config sites limit →
        (sitesUpTo context.config calls count).length = limit + 1) ∧
      (¬ Straddles context.config sites limit →
        (sitesUpTo context.config calls count).length = min limit sites.length) := by
  intro sites
  have short : ∀ earlier < count, (sitesUpTo context.config calls earlier).length < limit := by
    intro earlier before
    have unset := halts.unset earlier before
    rw [after_upTo, decide_eq_false_iff_not] at unset
    omega
  have reached : count < calls.length → limit ≤ (sitesUpTo context.config calls count).length := by
    intro more
    have set := halts.set more
    rwa [after_upTo, decide_eq_true_eq] at set
  by_cases beyond : limit < (sitesUpTo context.config calls count).length
  · obtain ⟨next, straddles⟩ := straddles_of_lt halts.within short beyond
    exact ⟨fun _ => next, fun apart => absurd straddles apart⟩
  · have least : (sitesUpTo context.config calls count).length = min limit sites.length := by
      have most : (sitesUpTo context.config calls count).length ≤ sites.length :=
        (prefix_sitesUpTo context.config halts.within).length_le
      by_cases more : count < calls.length
      · have least := reached more
        omega
      · have all : sitesUpTo context.config calls count = sites := by
          rw [sitesUpTo, List.take_of_length_le (Nat.le_of_not_lt more)]
        rw [all] at beyond ⊢
        omega
    refine ⟨fun straddles => ?_, fun _ => least⟩
    have enough : limit < sites.length := by
      obtain ⟨earlier, later, _, _, _, _, length, split⟩ := straddles
      rw [split, List.length_append, List.length_cons, List.length_cons]
      omega
    have exactly : (sitesUpTo context.config calls count).length = limit := by omega
    rw [← exactly] at straddles
    exact absurd straddles (not_straddles_sitesUpTo halts.within)

end Pass

/-- A check under a flag that shows any values at its readings, also one that is cleared again, does
what the check without a flag does first: its call-sites and its diagnostics are the first ones of
the full check. If it does not end as cancelled, it is the full check, and no reading showed the
flag set. After a reading that shows it set there is no other, and no call-site is settled that was
not settled before, in whatever tree it stands. -/
theorem checkUnit_prefix_of_full (config : Config) (model : Model) (unit : SourceUnit)
    (values : Nat → Bool) :
    let flag := Cancellation.showing values
    let visits := Pass.visitAll ⟨config, model, unit.file, unit.text⟩ flag {} 0
    let calls := Expr.childCalls unit.roots
    let readings := (visits calls).2.readings
    let report := Pass.checkUnit config model flag unit
    let full := Pass.checkUnit config model .never unit
    Event.askedCalls full.events = (Pass.sitesOf config unit.roots).map Prod.fst ∧
      (∃ sites, sites <+: Pass.sitesOf config unit.roots ∧
        Event.askedCalls report.events = sites.map Prod.fst ∧
        report.summary.classified = sites.length ∧
        ∀ number, (visits calls).2.settled.contains number = true ↔
          number ∈ sites.map Prod.snd) ∧
      report.diagnostics <+: full.diagnostics ∧
      (report.summary.cancelled = false →
        report = full ∧ ∀ reading < readings, values reading = false) ∧
      ∀ reading < readings, values reading = true →
        report.summary.cancelled = true ∧ reading + 1 = readings ∧
          Event.askedCalls report.events = Event.askedCalls (visits (calls.take reading)).1 ∧
          report.summary.classified = (visits (calls.take reading)).2.settled.size := by
  intro flag visits calls readings report full
  let context : Context := ⟨config, model, unit.file, unit.text⟩
  obtain ⟨count, halts⟩ := Pass.exists_haltsAt context flag calls
  have events : (visits calls).1 = (Pass.upTo context calls count).1 := halts.events
  have settled : (visits calls).2.settled = (Pass.upTo context calls count).2.settled :=
    halts.settled
  have asked : Event.askedCalls report.events = Event.askedCalls (visits calls).1 :=
    Pass.events_checkUnit (fun _ => rfl) config model flag unit
  have stops : ∀ reading < readings, values reading = true →
      reading = count ∧ count < calls.length := by
    intro reading made set
    have within : reading ≤ calls.length := Nat.le_trans (Nat.le_of_lt made) halts.readings_le
    exact halts.eq_of_set made ((Pass.showing_upTo values within).trans set)
  refine ⟨?_, ?_, ?_, ?_, ?_⟩
  · exact (Pass.events_checkUnit (fun _ => rfl) config model .never unit).trans
      (Pass.visitAll_asks context calls).1
  · obtain ⟨sites, size, marked⟩ := halts.asks
    exact ⟨Pass.sitesUpTo config calls count, Pass.prefix_sitesUpTo config halts.within,
      asked.trans sites, size, marked⟩
  · have found : report.diagnostics = Event.diagnostics (visits calls).1 :=
      Pass.events_checkUnit (fun _ => rfl) config model flag unit
    have fullFound : full.diagnostics =
        Event.diagnostics (Pass.visitAll context .never {} 0 calls).1 :=
      Pass.events_checkUnit (fun _ => rfl) config model .never unit
    rw [found, fullFound, events]
    exact (Pass.prefix_upTo context calls count).filterMap _
  · intro running
    have last : ¬ count < calls.length := fun more =>
      Bool.false_ne_true (running.symm.trans (halts.cancelled_iff.mpr more))
    constructor
    · have all : count = calls.length := Nat.le_antisymm halts.within (Nat.le_of_not_lt last)
      have same : visits calls = Pass.visitAll context .never {} 0 calls := by
        rw [← Pass.upTo_length, ← all]
        exact halts.visitAll_eq.trans (if_neg last)
      simp only [visits, calls, context] at same
      simp only [report, full, Pass.checkUnit, Pass.run, same]
    · intro reading made
      rw [← Bool.not_eq_true]
      exact fun set => last (stops reading made set).2
  · intro reading made set
    obtain ⟨rfl, more⟩ := stops reading made set
    have visited : visits (calls.take reading) = Pass.upTo context calls reading :=
      halts.visitAll_take (Nat.le_refl _)
    have stopped : readings = reading + 1 := halts.readings.trans (if_pos more)
    rw [asked, visited, events]
    exact ⟨halts.cancelled_iff.mpr more, stopped.symm, rfl, congrArg Std.HashSet.size settled⟩

/-- A check whose flag is set as soon as a number of call-sites have been settled settles the first
call-sites of the full check, that number of them or all if there are fewer. It settles one more
exactly when the last of them is a receiver that the next call-site is chained to. -/
theorem checkUnit_overruns_straddled (config : Config) (model : Model) (unit : SourceUnit)
    (limit : Nat) :
    let sites := Pass.sitesOf config unit.roots
    let report := Pass.checkUnit config model (.after limit 0) unit
    Event.askedCalls (Pass.checkUnit config model .never unit).events = sites.map Prod.fst ∧
      Event.askedCalls report.events = (sites.take report.summary.classified).map Prod.fst ∧
      (Pass.Straddles config sites limit → report.summary.classified = limit + 1) ∧
      (¬ Pass.Straddles config sites limit →
        report.summary.classified = min limit sites.length) := by
  intro sites report
  let context : Context := ⟨config, model, unit.file, unit.text⟩
  obtain ⟨count, halts⟩ :=
    Pass.exists_haltsAt context (.after limit 0) (Expr.childCalls unit.roots)
  obtain ⟨asked, size, _⟩ := halts.asks
  have classified : report.summary.classified =
      (Pass.sitesUpTo config (Expr.childCalls unit.roots) count).length := size
  have settled : sites.take report.summary.classified =
      Pass.sitesUpTo config (Expr.childCalls unit.roots) count := by
    rw [classified]
    exact (List.prefix_iff_eq_take.mp (Pass.prefix_sitesUpTo config halts.within)).symm
  refine ⟨?_, ?_, ?_⟩
  · exact (Pass.events_checkUnit (fun _ => rfl) config model .never unit).trans
      (Pass.visitAll_asks context (Expr.childCalls unit.roots)).1
  · rw [settled]
    exact (Pass.events_checkUnit (fun _ => rfl) config model (.after limit 0) unit).trans asked
  · rw [classified]
    exact halts.length_after

/-- The query `orders.Select().Where()`. -/
def chainedOrders : SourceUnit where
  file := ⟨0⟩
  roots := [.methodCall (.methodCall (.identifier {} "orders") "Select" []) "Where" []]

/-- A check may settle more call-sites than it should: with a flag that is set when the first one
has been settled, both calls of a chain are settled. -/
theorem checkUnit_overruns_chain :
    (Pass.checkUnit .default (.ofFacts .empty) (.after 1 0) chainedOrders).summary.classified =
      2 := by
  have select : Config.default.isOperator "Select" = true := by cbv
  have filter : Config.default.isOperator "Where" = true := by cbv
  simp [Pass.checkUnit, Pass.run, chainedOrders, Expr.methodCall, Expr.childCalls, Expr.calls,
    Expr.slotCalls, Pass.visitAll, Pass.visit, Cancellation.after, Pass.State.progress,
    Pass.State.summary, Pass.settleSite, Pass.settle, Call.chained?, Call.namesOperator,
    Call.isCandidate, select, filter, Context.classify, Model.ofFacts, Std.HashSet.size_insert]

end QueryAudit
