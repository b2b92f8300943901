import QueryAudit.Proofs.EntryTrees
import QueryAudit.Proofs.IndependentUnits
import QueryAudit.Proofs.ReportedCalls

/-! The exit status of a run, read off the dumps. A call entry has to be reported for what stands in
its dump, where types are followed by their positions; the stores, batches and passes of a run add
nothing to that. What stops a run is a fault of its configuration, or of the first dump that fails by
itself. -/
namespace QueryAudit

/-! ## Types -/

namespace TypeEntry

/-- A type of a dump that is a finite tree over enumerations and transportable scalars, with at
most the given number of records and arrays on top of each other. -/
inductive TreeWithin (types : List TypeEntry) : (limit position : Nat) → Prop where
  | enumeration {limit position : Nat} {name : String} {underlying : Scalar}
      (declared : types[position]? = some (.enumeration name underlying)) :
      TreeWithin types limit position
  | scalar {limit position : Nat} {own : Scalar}
      (declared : types[position]? = some (.scalar own))
      (transportable : own.isTransportable = true) : TreeWithin types limit position
  | empty {limit position : Nat} (declared : types[position]? = some (.anonymous [])) :
      TreeWithin types limit position
  | record {limit position : Nat} {members : List MemberEntry}
      (declared : types[position]? = some (.anonymous members))
      (below : ∀ member ∈ members, TreeWithin types limit member.type) :
      TreeWithin types (limit + 1) position
  | array {limit position element rank : Nat}
      (declared : types[position]? = some (.array element rank))
      (below : TreeWithin types limit element) : TreeWithin types (limit + 1) position

end TypeEntry

section

variable {dump : UnitDump} {contents : Contents} {limit position : Nat}

/-- The kinds that a dump declares are those that its entries describe. -/
theorem UnitDump.kind?_contents (declared : dump.contents = .ok contents) (position : Nat) :
    contents.types.kind? ⟨position⟩ =
      dump.types[position]?.map (TypeEntry.kind TypeId.mk) := by
  obtain ⟨typed, _⟩ := contents_ok declared
  rw [← TypeId.following_zero, mapM_ok_iff TypeEntry.load_ok_iff] at typed
  simp only [Nat.zero_add] at typed
  rw [Contents.kind?_types, typed.2, List.getElem?_map]

open Evaluability in
/-- A tree of a dump is plain data of the same depth. -/
theorem UnitDump.plainWithin_of_treeWithin (declared : dump.contents = .ok contents)
    (tree : TypeEntry.TreeWithin dump.types limit position) :
    PlainWithin contents.types limit ⟨position⟩ := by
  have kinds := kind?_contents declared
  induction tree with
  | @enumeration limit position name underlying found =>
    exact ⟨0, Nat.zero_le _, .enumeration (by rw [kinds, found]; rfl)⟩
  | @scalar limit position own found transportable =>
    exact ⟨0, Nat.zero_le _, .scalar (by rw [kinds, found]; rfl) transportable⟩
  | @empty limit position found =>
    have high : HasHeight contents.types ⟨position⟩ (tallest (fun _ => 0) []) :=
      .record (by rw [kinds, found]; rfl) fun _ listed => absurd listed List.not_mem_nil
    exact ⟨0, Nat.zero_le _, high⟩
  | @record limit position members found below ih =>
    let described : List Member := members.map fun member => ⟨member.name, ⟨member.type⟩⟩
    have held : contents.types.kind? ⟨position⟩ = some (.anonymous described) := by
      rw [kinds, found]
      rfl
    have lower : ∀ member ∈ described,
        ∃ height < limit + 1, HasHeight contents.types member.type height := by
      intro member listed
      obtain ⟨entry, given, rfl⟩ := List.mem_map.mp listed
      obtain ⟨height, within, high⟩ := ih entry given
      exact ⟨height, by omega, high⟩
    obtain ⟨heights, high⟩ := exists_heights lower
    refine ⟨tallest heights described, ?_, .record held fun member listed => (high member listed).1⟩
    exact tallest_le fun member listed => (high member listed).2
  | @array limit position element rank found below ih =>
    obtain ⟨height, within, high⟩ := ih
    exact ⟨height + 1, by omega, .array (by rw [kinds, found]; rfl) high⟩

open Evaluability in
/-- Plain data that a dump declares is a tree there. -/
theorem UnitDump.treeWithin_of_hasHeight (declared : dump.contents = .ok contents) {height : Nat}
    (high : HasHeight contents.types ⟨position⟩ height) (within : height ≤ limit) :
    TypeEntry.TreeWithin dump.types limit position := by
  have entryOf : ∀ {position : Nat} {kind : Kind}, contents.types.kind? ⟨position⟩ = some kind →
      ∃ entry, dump.types[position]? = some entry ∧ entry.kind TypeId.mk = kind := by
    intro position kind held
    rw [kind?_contents declared] at held
    exact Option.map_eq_some_iff.mp held
  generalize there : (⟨position⟩ : TypeId) = type at high
  induction high generalizing position limit with
  | enumeration held =>
    subst there
    obtain ⟨entry, found, described⟩ := entryOf held
    cases entry <;> cases described
    exact .enumeration found
  | scalar held transportable =>
    subst there
    obtain ⟨entry, found, described⟩ := entryOf held
    cases entry <;> cases described
    exact .scalar found transportable
  | @record type members heights held below ih =>
    subst there
    obtain ⟨entry, found, described⟩ := entryOf held
    cases entry <;> cases described
    next members =>
      have described : ∀ member ∈ members, (⟨member.name, ⟨member.type⟩⟩ : Member) ∈
          members.map fun member => ⟨member.name, ⟨member.type⟩⟩ :=
        fun member listed => List.mem_map.mpr ⟨member, listed, rfl⟩
      have lower : ∀ member ∈ members, heights ⟨member.type⟩ < limit := by
        intro member listed
        exact Nat.lt_of_lt_of_le (lt_tallest (described member listed)) within
      cases members with
      | nil => exact .empty found
      | cons first rest =>
        -- A record with a member is not of height zero, so a level is left for its members.
        have left := lower first List.mem_cons_self
        obtain ⟨less, rfl⟩ : ∃ less, limit = less + 1 := ⟨limit - 1, by omega⟩
        apply TypeEntry.TreeWithin.record found
        intro member listed
        exact ih _ (described member listed) (Nat.le_of_lt_succ (lower member listed)) rfl
  | @array type element rank height held below ih =>
    subst there
    obtain ⟨entry, found, described⟩ := entryOf held
    cases entry <;> cases described
    obtain ⟨less, rfl⟩ : ∃ less, limit = less + 1 := ⟨limit - 1, by omega⟩
    exact .array found (ih (by omega) rfl)

theorem UnitDump.treeWithin_iff (declared : dump.contents = .ok contents) :
    TypeEntry.TreeWithin dump.types limit position ↔
      Evaluability.PlainWithin contents.types limit ⟨position⟩ := by
  constructor
  · exact plainWithin_of_treeWithin declared
  · rintro ⟨height, within, high⟩
    exact treeWithin_of_hasHeight declared high within

end

/-! ## Calls -/

namespace ExprEntry

/-- The entries that a call of an operator has as its callee: the operator by its bare name, or a
member that is named like an operator or whose receiver is. -/
inductive NamesOperator (config : Config) : ExprEntry → Prop where
  | bare {note : Note} {name : String} (recognized : config.isOperator name = true) :
      NamesOperator config (.identifier note name)
  | named {note : Note} {receiver : ExprEntry} {name : String}
      (recognized : config.isOperator name = true) :
      NamesOperator config (.member note receiver name)
  | ofIdentifier {note inner : Note} {receiver name : String}
      (recognized : config.isOperator receiver = true) :
      NamesOperator config (.member note (.identifier inner receiver) name)
  | ofMember {note inner : Note} {left : ExprEntry} {receiver name : String}
      (recognized : config.isOperator receiver = true) :
      NamesOperator config (.member note (.member inner left receiver) name)

/-- A call entry that has to be reported: it has the shape of an operator and is bound to a method
of the remote family, and its first argument, whatever it is wrapped in, is a lambda whose body has
a type that is no tree within the limit. -/
inductive Offends (config : Config) (types : List TypeEntry) : ExprEntry → Prop where
  | intro {note lambdaNote : Note} {callee body : ExprEntry}
      {arguments : List (SlotEntry ExprEntry)} {argument : SlotEntry ExprEntry}
      {method containing : String} {parameters : List String} {position : Nat}
      (named : callee.NamesOperator config)
      (remote : config.remoteFamily.contains containing = true)
      (first : arguments.head? = some argument)
      (wraps : argument.value.Wraps (.lambda lambdaNote parameters body))
      (typed : body.note.convertedType = some position)
      (refused : ¬ TypeEntry.TreeWithin types config.maxTypeDepth position) :
      Offends config types (.call note callee arguments (some (.method method (some containing))))

variable {config : Config} {entry inner : ExprEntry} {expr part : Expr}

theorem Denotes.namesOperator_iff {call : Call} (denotes : Denotes entry call.callee) :
    entry.NamesOperator config ↔ call.OperatorShaped config := by
  obtain ⟨mark, callee, arguments⟩ := call
  constructor
  · rintro (recognized | recognized | recognized | recognized)
    · obtain ⟨⟨⟩, _, _⟩ := denotes
      exact .bare rfl recognized
    · obtain ⟨⟨⟩, _, _⟩ := denotes
      exact .named rfl recognized
    · obtain ⟨⟨⟩, _, _ | ⟨⟨⟨⟩, _, _⟩, _⟩⟩ := denotes
      exact .ofIdentifier rfl recognized
    · obtain ⟨⟨⟩, _, _ | ⟨⟨⟨⟩, _, _⟩, _⟩⟩ := denotes
      exact .ofMember rfl recognized
  · rintro (⟨⟨⟩, recognized⟩ | ⟨⟨⟩, recognized⟩ | ⟨⟨⟩, recognized⟩ | ⟨⟨⟩, recognized⟩)
    · obtain ⟨⟨⟩, _, _⟩ := denotes
      exact .bare recognized
    · obtain ⟨⟨⟩, _, _⟩ := denotes
      exact .named recognized
    · obtain ⟨⟨⟩, _, _ | ⟨⟨⟨⟩, _, _⟩, _⟩⟩ := denotes
      exact .ofIdentifier recognized
    · obtain ⟨⟨⟩, _, _ | ⟨⟨⟨⟩, _, _⟩, _⟩⟩ := denotes
      exact .ofMember recognized

/-- What an entry is wrapped in denotes wrapping of what it denotes. -/
theorem Denotes.wraps (denotes : Denotes entry expr) (wraps : entry.Wraps inner) :
    ∃ part, expr.Wraps part ∧ Denotes inner part := by
  induction wraps generalizing expr with
  | bare => exact ⟨expr, .bare, denotes⟩
  | paren _ ih =>
    obtain ⟨⟨⟩, _, _ | ⟨valueDenotes, _⟩⟩ := denotes
    obtain ⟨part, wraps, partDenotes⟩ := ih valueDenotes
    exact ⟨part, .paren wraps, partDenotes⟩
  | cast _ ih =>
    obtain ⟨⟨⟩, _, _ | ⟨valueDenotes, _⟩⟩ := denotes
    obtain ⟨part, wraps, partDenotes⟩ := ih valueDenotes
    exact ⟨part, .cast wraps, partDenotes⟩

theorem Denotes.of_wraps (denotes : Denotes entry expr) (wraps : expr.Wraps part) :
    ∃ inner, entry.Wraps inner ∧ Denotes inner part := by
  induction wraps generalizing entry with
  | bare => exact ⟨entry, .bare, denotes⟩
  | paren _ ih =>
    obtain ⟨⟨⟩, _, _ | ⟨valueDenotes, _⟩⟩ := denotes
    obtain ⟨inner, wraps, innerDenotes⟩ := ih valueDenotes
    exact ⟨inner, .paren wraps, innerDenotes⟩
  | cast _ ih =>
    obtain ⟨⟨⟩, _, _ | ⟨valueDenotes, _⟩⟩ := denotes
    obtain ⟨inner, wraps, innerDenotes⟩ := ih valueDenotes
    exact ⟨inner, .cast wraps, innerDenotes⟩

/-- The first argument of a call entry denotes the first argument of the call. -/
theorem first_denotes {arguments : List (SlotEntry ExprEntry)} {slots : List (Slot Expr)}
    (within : List.Forall₂ Denotes (arguments.map SlotEntry.value) (slots.map Slot.value)) :
    (∀ argument, arguments.head? = some argument →
      ∃ slot, slots.head? = some slot ∧ Denotes argument.value slot.value) ∧
    ∀ slot, slots.head? = some slot →
      ∃ argument, arguments.head? = some argument ∧ Denotes argument.value slot.value := by
  rw [List.forall₂_map_left_iff, List.forall₂_map_right_iff] at within
  cases within with
  | nil => simp
  | cons first _ => simp [first]

/-- A call entry has to be reported exactly when the call that it denotes has to be. -/
theorem Denotes.offends_iff {dump : UnitDump} {contents : Contents} {marks : Marks} {callee : Expr}
    {slots : List (Slot Expr)} (declared : dump.contents = .ok contents)
    (denotes : Denotes entry (.call marks callee slots)) :
    entry.Offends config dump.types ↔
      Reportable config (.ofFacts contents.types) ⟨marks.inner, callee, slots⟩ := by
  let call : Call := ⟨marks.inner, callee, slots⟩
  obtain ⟨alike, _, inside⟩ := denotes
  cases alike with | call bound => ?_
  obtain _ | ⟨calleeDenotes, within⟩ := inside
  have shaped : _ ↔ call.OperatorShaped config := calleeDenotes.namesOperator_iff
  constructor
  · rintro ⟨named, remote, first, wraps, typed, refused⟩
    obtain ⟨slot, head, argumentDenotes⟩ := (first_denotes within).1 _ first
    obtain ⟨part, partWraps, partDenotes⟩ := argumentDenotes.wraps wraps
    obtain ⟨⟨⟩, _, _ | ⟨⟨_, converted, _⟩, _⟩⟩ := partDenotes
    rw [typed] at converted
    have given : call.firstArgument? = some slot.value := congrArg (Option.map Slot.value) head
    exact ⟨shaped.mp named, ⟨_, _, bound, remote⟩, _, _, _, _, _, given, partWraps, converted,
      fun plain => refused ((UnitDump.treeWithin_iff declared).mpr plain)⟩
  · rintro ⟨recognized, ⟨method, containing, resolved, remote⟩, argument, _, parameters, body, type,
      given, wraps, converted, refused⟩
    obtain ⟨slot, head, rfl⟩ := Option.map_eq_some_iff.mp given
    obtain ⟨first, isFirst, argumentDenotes⟩ := (first_denotes within).2 slot head
    obtain ⟨inner, innerWraps, innerDenotes⟩ := argumentDenotes.of_wraps wraps
    obtain ⟨⟨⟩, _, _ | ⟨⟨_, typed, _⟩, _⟩⟩ := innerDenotes
    obtain ⟨position, noted, rfl⟩ := Option.map_eq_some_iff.mp (typed.symm.trans converted)
    cases bound.symm.trans resolved
    exact .intro (shaped.mpr recognized) remote isFirst innerWraps noted
      fun tree => refused ((UnitDump.treeWithin_iff declared).mp tree)

end ExprEntry

/-! ## Units -/

/-- A pass that is not cancelled says something exactly when some call has to be reported. -/
theorem Pass.diagnostics_ne_nil_iff (config : Config) (model : Model) (unit : SourceUnit) :
    (checkUnit config model .never unit).diagnostics ≠ [] ↔
      ∃ root ∈ unit.roots, ∃ call, Expr.Holds call root ∧ Reportable config model call := by
  let context : Context := ⟨config, model, unit.file, unit.text⟩
  have some_iff : (checkUnit config model .never unit).diagnostics ≠ [] ↔
      ∃ site ∈ sitesOf config unit.roots, (context.finding? site.1).isSome = true := by
    rw [(checkUnit_settles config model unit).1, Ne, List.flatMap_eq_nil_iff]
    simp [Option.isSome_iff_ne_none, context]
  rw [some_iff]
  constructor
  · rintro ⟨⟨call, number⟩, listed, found⟩
    obtain ⟨numbered, candidate⟩ := mem_sitesOf.mp listed
    obtain ⟨root, isRoot, holds⟩ := Expr.mem_childCalls_iff.mp (List.mem_of_getElem? numbered)
    exact ⟨root, isRoot, call, holds, (reportable_iff context call).mpr ⟨candidate, found⟩⟩
  · rintro ⟨root, isRoot, call, holds, reportable⟩
    obtain ⟨candidate, found⟩ := (reportable_iff context call).mp reportable
    obtain ⟨number, numbered⟩ :=
      List.mem_iff_getElem?.mp (Expr.mem_childCalls_iff.mpr ⟨root, isRoot, holds⟩)
    exact ⟨(call, number), mem_sitesOf.mpr ⟨numbered, candidate⟩, found⟩

/-- A dump with a call entry, anywhere in its trees, that has to be reported. -/
def UnitDump.Offends (config : Config) (dump : UnitDump) : Prop :=
  ∃ root ∈ dump.roots, ∃ entry : ExprEntry, entry.Inside root ∧ entry.Offends config dump.types

/-- Whether something is said about a unit can be read off its dump. -/
theorem Batch.Represents.finds_iff {batch : Batch} {dump : UnitDump} {contents : Contents}
    {unit : SourceUnit} (represents : batch.Represents dump contents unit)
    (declared : dump.contents = .ok contents) (config : Config) :
    (Pass.unitReport config batch.model unit).diagnostics ≠ [] ↔ dump.Offends config := by
  have roots := ExprEntry.loadChildren_denotes (UnitDump.contents_ok declared).2
  have alone : (Pass.unitReport config batch.model unit).diagnostics ≠ [] ↔
      (Pass.checkUnit config (.ofFacts contents.types) .never
        ⟨⟨0⟩, dump.text, contents.roots⟩).diagnostics ≠ [] := by
    rw [(represents.report declared config).1, Diagnostic.sort, Ne, ← List.length_eq_zero_iff,
      List.length_mergeSort, List.length_map, List.length_eq_zero_iff]
  rw [alone, Pass.diagnostics_ne_nil_iff]
  constructor
  · rintro ⟨root, isRoot, call, holds, reportable⟩
    obtain ⟨origin, listed, denotes⟩ := (forall₂_partner roots).2 root isRoot
    obtain ⟨entry, outer, inside, entryDenotes⟩ := denotes.inside_of_holds holds
    exact ⟨origin, listed, entry, inside, (entryDenotes.offends_iff declared).mpr reportable⟩
  · rintro ⟨origin, listed, entry, inside, offends⟩
    obtain ⟨root, isRoot, denotes⟩ := (forall₂_partner roots).1 origin listed
    obtain ⟨part, partDenotes, holds⟩ := ExprEntry.Denotes.holds_of_inside inside denotes
    obtain ⟨marks, callee, slots, rfl⟩ : ∃ marks callee slots, part = .call marks callee slots := by
      obtain ⟨alike, _, _⟩ := partDenotes
      cases offends
      cases alike
      exact ⟨_, _, _, rfl⟩
    exact ⟨root, isRoot, _, holds _ .here, (partDenotes.offends_iff declared).mp offends⟩

/-! ## Runs -/

namespace CommandLine

/-- A dump that fails by itself. -/
inductive Fails (read : Read) (path : String) : Failure → Prop where
  | unreadable {fault : ReadFault} (unread : read path = .error fault) :
      Fails read path (.dumpUnreadable path fault)
  | refused {text : String} {cause : DumpError} (found : read path = .ok text)
      (refused : (UnitDump.loadText text .empty).1 = .error cause) :
      Fails read path (.dumpRefused path cause)

/-- What keeps a check from being made: a fault of the configuration, or else that of the first
dump that fails. -/
inductive Stops (read : Read) (options : Options) : Failure → Prop where
  | configUnreadable {path : String} {fault : ReadFault} (given : options.config = some path)
      (unread : read path = .error fault) : Stops read options (.configUnreadable path fault)
  | configRefused {path text : String} {cause : ConfigError} (given : options.config = some path)
      (found : read path = .ok text) (refused : Config.read text = .error cause) :
      Stops read options (.configRefused path cause)
  | dump {config : Config} {before after : List String} {path : String} {failure : Failure}
      (valid : loadConfig read options.config = .ok config)
      (split : options.units = before ++ path :: after)
      (earlier : ∀ other ∈ before, Loads read other) (fails : Fails read path failure) :
      Stops read options failure

/-- The dump on a path has a call entry that has to be reported. -/
def Offending (read : Read) (config : Config) (path : String) : Prop :=
  ∃ text dump, read path = .ok text ∧ UnitDump.read? text = some dump ∧ dump.Offends config

variable {read : Read} {path : String} {failure : Failure}

theorem loads_or_fails (read : Read) (path : String) :
    Loads read path ∨ ∃ failure, Fails read path failure := by
  cases found : read path with
  | error fault => exact .inr ⟨_, .unreadable found⟩
  | ok text =>
    cases loaded : (UnitDump.loadText text .empty).1 with
    | error cause => exact .inr ⟨_, .refused found loaded⟩
    | ok unit => exact .inl ⟨text, found, by rw [loaded]; rfl⟩

/-- Whether and why a dump is refused does not depend on the store. -/
theorem loadText_error_iff (text : String) (store other : Store) (cause : DumpError) :
    (UnitDump.loadText text store).1 = .error cause ↔
      (UnitDump.loadText text other).1 = .error cause := by
  unfold UnitDump.loadText
  cases UnitDump.read? text with
  | none => exact Iff.rfl
  | some dump => simp only [(dump.load_eq _).1, map_error_iff]

/-- A dump that fails by itself fails in every batch. -/
theorem Fails.loadUnit (fails : Fails read path failure) (batch : Batch) :
    loadUnit read batch path = .error failure := by
  cases fails with
  | unreadable unread => simp only [CommandLine.loadUnit, unread]
  | @refused text cause found refused =>
    have refusedThere := (loadText_error_iff text batch.types .empty cause).mpr refused
    have added : batch.add text = .error cause := by
      unfold Batch.add
      generalize UnitDump.loadText text batch.types = outcome at refusedThere
      obtain ⟨result, grown⟩ := outcome
      cases refusedThere
      rfl
    simp only [CommandLine.loadUnit, found, added]

theorem Stops.check {options : Options} (stops : Stops read options failure) :
    check read options = .error failure := by
  cases stops with
  | configUnreadable given unread =>
    simp only [CommandLine.check, loadConfig, given, unread]
    rfl
  | configRefused given found refused =>
    simp only [CommandLine.check, loadConfig, given, found, refused]
    rfl
  | dump valid split earlier fails =>
    obtain ⟨batch, loaded, _⟩ := (holds_nothing read).loadAll earlier
    simp only [CommandLine.check, valid, split, List.foldlM_append, List.foldlM_cons, loaded,
      fails.loadUnit, bind, Except.bind]

/-- The first dump that does not load, if there is one. -/
theorem first_failing (read : Read) (paths : List String) :
    (∀ path ∈ paths, Loads read path) ∨
      ∃ before path after failure, paths = before ++ path :: after ∧
        (∀ other ∈ before, Loads read other) ∧ Fails read path failure := by
  induction paths with
  | nil => exact .inl (by simp)
  | cons path rest ih =>
    rcases loads_or_fails read path with loads | ⟨failure, fails⟩
    · rcases ih with all | ⟨before, later, after, failure, rfl, earlier, fails⟩
      · exact .inl (List.forall_mem_cons.mpr ⟨loads, all⟩)
      · exact .inr ⟨path :: before, later, after, failure, rfl,
          List.forall_mem_cons.mpr ⟨loads, earlier⟩, fails⟩
    · exact .inr ⟨[], path, rest, failure, rfl, by simp, fails⟩

/-- Either something keeps the check from being made, or everything loads. -/
theorem stops_or_loads (read : Read) (options : Options) :
    (∃ failure, Stops read options failure) ∨
      ∃ config, loadConfig read options.config = .ok config ∧
        ∀ path ∈ options.units, Loads read path := by
  cases valid : loadConfig read options.config with
  | error failure =>
    left
    unfold loadConfig at valid
    cases given : options.config with
    | none => simp [given] at valid
    | some path =>
      simp only [given] at valid
      cases found : read path with
      | error fault => exact ⟨_, .configUnreadable given found⟩
      | ok text =>
        cases outcome : Config.read text with
        | error cause => exact ⟨_, .configRefused given found outcome⟩
        | ok config => simp [found, outcome] at valid
  | ok config =>
    rcases first_failing read options.units with
      all | ⟨before, path, after, failure, split, earlier, fails⟩
    · exact .inr ⟨config, rfl, all⟩
    · exact .inl ⟨failure, .dump valid split earlier fails⟩

/-- Something is found in a batch exactly when one of the dumps has to be reported. -/
theorem Holds.any_iff {paths : List String} {batch : Batch} (holds : Holds read paths batch)
    (config : Config) :
    Findings.any ⟨batch, batch.units.toList.map (Pass.unitReport config batch.model)⟩ = true ↔
      ∃ path ∈ paths, Offending read config path := by
  have offending : List.Forall₂ (fun path unit => Offending read config path ↔
      (Pass.unitReport config batch.model unit).diagnostics ≠ []) paths batch.units.toList := by
    refine holds.units.imp ?_
    rintro path unit ⟨dump, contents, ⟨found, readable, declared⟩, represents⟩
    rw [represents.finds_iff declared config]
    constructor
    · rintro ⟨_, _, foundAgain, readableAgain, offends⟩
      cases found.symm.trans foundAgain
      cases readable.symm.trans readableAgain
      exact offends
    · intro offends
      exact ⟨_, dump, found, readable, offends⟩
  have reported : Findings.any ⟨batch, batch.units.toList.map (Pass.unitReport config batch.model)⟩ =
      true ↔ ∃ unit ∈ batch.units.toList,
        (Pass.unitReport config batch.model unit).diagnostics ≠ [] := by
    simp only [Findings.any, List.any_map, List.any_eq_true, Function.comp_apply,
      Bool.not_eq_true', List.isEmpty_eq_false_iff]
  rw [reported]
  constructor
  · rintro ⟨unit, listed, found⟩
    obtain ⟨path, isPath, same⟩ := (forall₂_partner offending).2 unit listed
    exact ⟨path, isPath, same.mpr found⟩
  · rintro ⟨path, isPath, offends⟩
    obtain ⟨unit, listed, same⟩ := (forall₂_partner offending).1 path isPath
    exact ⟨unit, listed, same.mp offends⟩

variable {options : Options}

theorem run_stopped (stops : Stops read options failure) :
    run read options = ⟨2, "", some failure, []⟩ := by
  simp only [run, stops.check]

/-- A run on dumps that all load says whether one of them has to be reported. -/
theorem run_loaded {config : Config} (valid : loadConfig read options.config = .ok config)
    (loads : ∀ path ∈ options.units, Loads read path) :
    (run read options).failure = none ∧ (run read options).status ≤ 1 ∧
      ((run read options).status = 1 ↔ ∃ path ∈ options.units, Offending read config path) ∧
      ((run read options).status = 0 ↔ ¬ ∃ path ∈ options.units, Offending read config path) := by
  obtain ⟨batch, checked, holds⟩ := check_ok options valid loads
  rw [← holds.any_iff config]
  simp only [run, checked]
  by_cases found : Findings.any ⟨batch, batch.units.toList.map (Pass.unitReport config batch.model)⟩
  · simp [found]
  · simp [found]

/-- The outcome of a run is decided by the configuration and the dumps. It fails exactly when
something stops it, and then prints nothing; otherwise its status says whether some dump has a call
entry that has to be reported. -/
theorem run_decided_by_dumps (read : Read) (options : Options) :
    (∀ failure, (run read options).failure = some failure ↔ Stops read options failure) ∧
      ((run read options).status = 2 ↔ ∃ failure, Stops read options failure ∧
        run read options = ⟨2, "", some failure, []⟩) ∧
      ((run read options).status = 1 ↔ ∃ config, loadConfig read options.config = .ok config ∧
        (∀ path ∈ options.units, Loads read path) ∧
        ∃ path ∈ options.units, Offending read config path) ∧
      ((run read options).status = 0 ↔ ∃ config, loadConfig read options.config = .ok config ∧
        (∀ path ∈ options.units, Loads read path) ∧
        ¬ ∃ path ∈ options.units, Offending read config path) ∧
      (run read options).status ≤ 2 := by
  rcases stops_or_loads read options with ⟨failure, stops⟩ | ⟨config, valid, loads⟩
  · have stopped := run_stopped stops
    have unloaded : ∀ config, loadConfig read options.config = .ok config →
        ¬ ∀ path ∈ options.units, Loads read path := by
      intro config valid loads
      have fine := (run_loaded valid loads).1
      rw [stopped] at fine
      cases fine
    rw [stopped]
    refine ⟨?_, ?_, ?_, ?_, Nat.le_refl 2⟩
    · intro other
      constructor
      · rintro ⟨⟩
        exact stops
      · intro again
        cases stopped.symm.trans (run_stopped again)
        rfl
    · exact iff_of_true rfl ⟨failure, stops, rfl⟩
    · exact iff_of_false (by simp) fun ⟨config, valid, loads, _⟩ => unloaded config valid loads
    · exact iff_of_false (by simp) fun ⟨config, valid, loads, _⟩ => unloaded config valid loads
  · obtain ⟨fine, least, found, clean⟩ := run_loaded valid loads
    have unstopped : ∀ failure, ¬ Stops read options failure := by
      intro failure stops
      rw [run_stopped stops] at fine
      cases fine
    have only : ∀ verdict : Config → Prop, verdict config ↔
        ∃ config, loadConfig read options.config = .ok config ∧
          (∀ path ∈ options.units, Loads read path) ∧ verdict config := by
      intro verdict
      constructor
      · exact fun said => ⟨config, valid, loads, said⟩
      · rintro ⟨other, otherValid, _, said⟩
        cases valid.symm.trans otherValid
        exact said
    refine ⟨?_, ?_, found.trans ?_, clean.trans ?_, by omega⟩
    · intro failure
      rw [fine]
      exact iff_of_false nofun (unstopped failure)
    · exact iff_of_false (by omega) fun ⟨failure, stops, _⟩ => unstopped failure stops
    · exact only fun config => ∃ path ∈ options.units, Offending read config path
    · exact only fun config => ¬ ∃ path ∈ options.units, Offending read config path

end CommandLine
end QueryAudit
