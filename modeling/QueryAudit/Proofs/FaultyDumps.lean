import QueryAudit.Proofs.EntryTrees

/-! What is wrong with a dump. The faults of a dump are listed apart from loading: those of the type
entries first, then those of the roots; in an expression that of its place first, then those of its
literal or of what is inside it, and that of its type last. Loading is refused with the first fault
of this list, and a dump without faults is one in which every entry is as it should be. -/
namespace QueryAudit

/-! ## Faults -/

/-- The fault of a reference to a type, in a dump that declares a number of them. -/
def danglingFault (count index : Nat) : List DumpError :=
  if index < count then [] else [.danglingType index count]

@[simp] theorem danglingFault_eq_nil_iff {count index : Nat} :
    danglingFault count index = [] ↔ index < count := by
  by_cases known : index < count <;> simp [danglingFault, known]

namespace TypeEntry

/-- The positions that a type entry refers to, in the order of its fields. -/
def referred : TypeEntry → List Nat
  | anonymous members => members.map MemberEntry.type
  | array element _ => [element]
  | named _ arguments => arguments
  | scalar _ | enumeration .. => []

/-- The fault of an enumeration that stores its values in anything but an integral scalar. -/
def underlyingFault : TypeEntry → List DumpError
  | enumeration name underlying =>
    if underlying.isIntegral then [] else [.store (.invalidUnderlying name underlying)]
  | _ => []

def faults (count : Nat) (entry : TypeEntry) : List DumpError :=
  entry.underlyingFault ++ entry.referred.flatMap (danglingFault count)

end TypeEntry

namespace Note

/-- The fault of a place that ends before it starts. -/
def placeFault (note : Note) : List DumpError :=
  note.loc.toList.flatMap fun loc => if loc.start ≤ loc.stop then [] else [.invalidLoc loc]

/-- The fault of a type that the dump does not declare. -/
def typeFault (count : Nat) (note : Note) : List DumpError :=
  note.convertedType.toList.flatMap (danglingFault count)

theorem placeFault_eq_nil_iff {note : Note} :
    note.placeFault = [] ↔ ∀ loc, note.loc = some loc → loc.start ≤ loc.stop := by
  simp [placeFault]

theorem typeFault_eq_nil_iff {count : Nat} {note : Note} :
    note.typeFault count = [] ↔ ∀ index, note.convertedType = some index → index < count := by
  simp [typeFault]

end Note

/-- A JSON value that a literal can have. -/
inductive Json.Atomic : Json → Prop where
  | null : Atomic .null
  | bool (value : Bool) : Atomic (.bool value)
  | number (value : JsonNumber) : Atomic (.number value)
  | string (value : String) : Atomic (.string value)

namespace ExprEntry

/-- The fault of a literal that is an array or an object. -/
def literalFault : ExprEntry → List DumpError
  | literal _ (.array items) => [.invalidLiteral (.array items)]
  | literal _ (.object fields) => [.invalidLiteral (.object fields)]
  | _ => []

theorem sizeOf_lt_of_mem_immediate {entry part : ExprEntry} (listed : part ∈ entry.immediate) :
    sizeOf part < sizeOf entry := by
  have inSlot {slots : List (SlotEntry ExprEntry)} (given : part ∈ slots.map SlotEntry.value) :
      sizeOf part < sizeOf slots := by
    obtain ⟨slot, isSlot, rfl⟩ := List.mem_map.mp given
    have smaller := List.sizeOf_lt_of_mem isSlot
    have own : sizeOf slot.value < sizeOf slot := by
      cases slot
      simp only [SlotEntry.mk.sizeOf_spec]
      omega
    omega
  cases entry with
  | anonymous note members =>
    have smaller := inSlot listed
    simp only [anonymous.sizeOf_spec]
    omega
  | call note callee arguments resolved =>
    simp only [call.sizeOf_spec]
    rcases List.mem_cons.mp listed with rfl | later
    · omega
    · have smaller := inSlot later
      omega
  | cast | lambda | member | paren =>
    cases List.mem_singleton.mp listed
    simp only [cast.sizeOf_spec, lambda.sizeOf_spec, member.sizeOf_spec, paren.sizeOf_spec]
    omega
  | other note text children =>
    have smaller : sizeOf part < sizeOf children := List.sizeOf_lt_of_mem listed
    simp only [other.sizeOf_spec]
    omega
  | identifier | literal => cases listed

/-- The faults of an expression and of everything inside it. -/
def faults (count : Nat) (entry : ExprEntry) : List DumpError :=
  entry.note.placeFault ++ (entry.literalFault ++
    (entry.immediate.attach.flatMap (fun part => faults count part.1) ++ entry.note.typeFault count))
termination_by sizeOf entry
decreasing_by exact sizeOf_lt_of_mem_immediate part.2

theorem faults_eq (count : Nat) (entry : ExprEntry) :
    entry.faults count = entry.note.placeFault ++ (entry.literalFault ++
      (entry.immediate.flatMap (faults count) ++ entry.note.typeFault count)) := by
  rw [faults]
  simp

end ExprEntry

/-- The faults of a dump in the order in which they are looked for. -/
def UnitDump.faults (dump : UnitDump) : List DumpError :=
  dump.types.flatMap (TypeEntry.faults dump.types.length) ++
    dump.roots.flatMap (ExprEntry.faults dump.types.length)

/-! ## Outcomes -/

/-- An outcome that is the first of some faults, or a success when there are none. -/
inductive StopsAtFirst {α : Type} : List DumpError → Except DumpError α → Prop where
  | done (value : α) : StopsAtFirst [] (.ok value)
  | stopped (cause : DumpError) (more : List DumpError) :
      StopsAtFirst (cause :: more) (.error cause)

namespace StopsAtFirst

variable {α β : Type} {faults others : List DumpError} {outcome : Except DumpError α}

theorem ok_iff (stops : StopsAtFirst faults outcome) :
    (∃ value, outcome = .ok value) ↔ faults = [] := by
  cases stops <;> simp

theorem error_iff (stops : StopsAtFirst faults outcome) (cause : DumpError) :
    outcome = .error cause ↔ faults.head? = some cause := by
  cases stops <;> simp

/-- The faults of a second step come after those of the first one. -/
theorem bind {next : α → Except DumpError β} (first : StopsAtFirst faults outcome)
    (later : ∀ value, StopsAtFirst others (next value)) :
    StopsAtFirst (faults ++ others) (outcome >>= next) := by
  cases first with
  | done value => exact later value
  | stopped cause more => exact .stopped cause (more ++ others)

theorem map (stops : StopsAtFirst faults outcome) (wrap : α → β) :
    StopsAtFirst faults (outcome.map wrap) := by
  cases stops with
  | done value => exact .done (wrap value)
  | stopped cause more => exact .stopped cause more

/-- What is made of a result has no faults of its own. -/
theorem bind_pure (stops : StopsAtFirst faults outcome) (make : α → β) :
    StopsAtFirst faults (outcome >>= fun value => pure (make value)) := by
  cases stops with
  | done value => exact .done (make value)
  | stopped cause more => exact .stopped cause more

/-- The faults of a traversal are those of its items, one after the other. -/
theorem mapM {load : α → Except DumpError β} {faultsOf : α → List DumpError}
    (each : ∀ item, StopsAtFirst (faultsOf item) (load item)) (items : List α) :
    StopsAtFirst (items.flatMap faultsOf) (items.mapM load) := by
  induction items with
  | nil => exact .done []
  | cons item rest ih =>
    rw [List.mapM_cons, List.flatMap_cons]
    exact (each item).bind fun result => ih.bind_pure (result :: ·)

/-! ## Loading -/

variable {ids : Array TypeId}

theorem typeIdAt (index : Nat) :
    StopsAtFirst (danglingFault ids.size index) (typeIdAt ids index) := by
  by_cases known : index < ids.size
  · simp only [danglingFault, known, ↓reduceIte, QueryAudit.typeIdAt, Array.getElem?_eq_getElem]
    exact .done _
  · simp only [danglingFault, known, ↓reduceIte, QueryAudit.typeIdAt, not_false_eq_true,
      Array.getElem?_eq_none, Nat.le_of_not_lt]
    exact .stopped _ []

theorem typeEntry (entry : TypeEntry) : StopsAtFirst (entry.faults ids.size) (entry.load ids) := by
  cases entry with
  | scalar own => exact .done _
  | enumeration name underlying =>
    by_cases integral : underlying.isIntegral = true
    · simp only [TypeEntry.faults, TypeEntry.underlyingFault, TypeEntry.load, integral, ↓reduceIte]
      exact .done _
    · simp only [TypeEntry.faults, TypeEntry.underlyingFault, TypeEntry.load, integral]
      exact .stopped _ _
  | anonymous members =>
    have each (member : MemberEntry) :
        StopsAtFirst (danglingFault ids.size member.type) (member.load ids) :=
      (typeIdAt member.type).bind_pure _
    have listed := (mapM each members).map Kind.anonymous
    rwa [← List.flatMap_map] at listed
  | array element rank =>
    have single : StopsAtFirst (danglingFault ids.size element)
        (TypeEntry.load ids (.array element rank)) := (typeIdAt element).bind_pure _
    rwa [← List.flatMap_singleton (danglingFault ids.size) element] at single
  | named name arguments => exact (mapM typeIdAt arguments).map _

theorem place (note : Note) : StopsAtFirst note.placeFault note.load := by
  obtain ⟨loc, type⟩ := note
  cases loc with
  | none => exact .done _
  | some loc =>
    by_cases turned : loc.stop < loc.start
    · have fault : Note.placeFault ⟨some loc, type⟩ = [.invalidLoc loc] := by
        simp [Note.placeFault, turned]
      simp only [fault, Note.load, turned, ↓reduceIte]
      exact .stopped _ []
    · have noFault : Note.placeFault ⟨some loc, type⟩ = [] := by
        simp [Note.placeFault, Nat.le_of_not_lt turned]
      simp only [noFault, Note.load, turned, ↓reduceIte]
      exact .done loc

theorem facts (note : Note) : StopsAtFirst (note.typeFault ids.size) (note.loadFacts ids) := by
  obtain ⟨loc, type⟩ := note
  cases type with
  | none => exact .done _
  | some index =>
    have single : StopsAtFirst (danglingFault ids.size index)
        (Note.loadFacts ids ⟨loc, some index⟩) := (typeIdAt index).bind_pure _
    rwa [← List.flatMap_singleton (danglingFault ids.size) index] at single

theorem literal (note : Note) (value : Json) :
    StopsAtFirst (ExprEntry.literalFault (.literal note value)) (Literal.load value) := by
  cases value with
  | null | bool | number | string => exact .done _
  | array | object => exact .stopped _ []

/-- What every kind of expression has in common: its place is looked at before what is inside, and
its type after that. -/
theorem around {entry : ExprEntry} {inside : Except DumpError α} {make : Loc → α → Facts → Expr}
    (within : StopsAtFirst
      (entry.literalFault ++ entry.immediate.flatMap (ExprEntry.faults ids.size)) inside) :
    StopsAtFirst (entry.faults ids.size) (do
      let loc ← entry.note.load
      let parts ← inside
      return make loc parts (← entry.note.loadFacts ids)) := by
  rw [ExprEntry.faults_eq, ← List.append_assoc entry.literalFault]
  exact (place entry.note).bind fun loc => within.bind fun parts => (facts entry.note).bind_pure _

theorem slots {entries : List (SlotEntry ExprEntry)}
    (each : ∀ slot ∈ entries, StopsAtFirst (slot.value.faults ids.size) (slot.value.load ids)) :
    StopsAtFirst ((entries.map SlotEntry.value).flatMap (ExprEntry.faults ids.size))
      (ExprEntry.loadSlots ids entries) := by
  induction entries with
  | nil => exact .done []
  | cons slot rest ih =>
    obtain ⟨first, later⟩ := List.forall_mem_cons.mp each
    exact first.bind fun value => (ih later).bind_pure _

theorem children {entries : List ExprEntry}
    (each : ∀ child ∈ entries, StopsAtFirst (child.faults ids.size) (child.load ids)) :
    StopsAtFirst (entries.flatMap (ExprEntry.faults ids.size))
      (ExprEntry.loadChildren ids entries) := by
  induction entries with
  | nil => exact .done []
  | cons child rest ih =>
    obtain ⟨first, later⟩ := List.forall_mem_cons.mp each
    exact first.bind fun value => (ih later).bind_pure _

/-- Loading an expression stops at the first fault in it. -/
theorem expr (entry : ExprEntry) : StopsAtFirst (entry.faults ids.size) (entry.load ids) := by
  induction entry with
  | anonymous note members each => exact around (slots each)
  | call note callee arguments resolved called each =>
    have within := called.bind fun callee => (slots each).bind_pure (callee, ·)
    have loaded : (ExprEntry.call note callee arguments resolved).load ids = (do
        let loc ← note.load
        let parts ← (do
          let callee ← callee.load ids
          let arguments ← ExprEntry.loadSlots ids arguments
          return (callee, arguments))
        let facts ← note.loadFacts ids
        return .call ⟨⟨loc, facts⟩, ⟨loc, { symbol := resolved }⟩⟩ parts.1 parts.2) := by
      simp only [ExprEntry.load, bind_assoc, pure_bind]
    rw [loaded]
    exact around within
  | cast _ _ value own | lambda _ _ value own | member _ value _ own | paren _ value own =>
    rw [← List.flatMap_singleton (ExprEntry.faults ids.size) value] at own
    exact around own
  | identifier note name =>
    rw [ExprEntry.faults_eq]
    exact (place note).bind fun loc => (facts note).bind_pure _
  | literal note value =>
    have own := literal note value
    rw [← List.append_nil (ExprEntry.literalFault _)] at own
    exact around own
  | other note text parts each => exact around (children each)

/-- Loading a dump stops at its first fault, whatever the store. -/
theorem dump (dump : UnitDump) (store : Store) : StopsAtFirst dump.faults (dump.load store).1 := by
  obtain ⟨typed, kinds, fills, loaded⟩ := dump.load_fills store
  let ids := TypeId.following store.size dump.types.length
  have size : ids.size = dump.types.length := by simp [ids, TypeId.first]
  have types : StopsAtFirst (dump.types.flatMap (TypeEntry.faults ids.size)) typed := by
    rw [fills.mapM.1]
    exact (mapM typeEntry dump.types).map _
  have roots : StopsAtFirst (dump.roots.flatMap (ExprEntry.faults ids.size))
      (ExprEntry.loadChildren ids dump.roots) := children fun root _ => expr root
  rw [size] at types roots
  rw [loaded]
  exact types.bind fun _ => roots.bind_pure _

end StopsAtFirst

/-! ## Dumps without faults -/

namespace TypeEntry

variable {count : Nat} {entry : TypeEntry}

theorem faults_eq_nil_iff :
    entry.faults count = [] ↔
      (∀ name underlying, entry = .enumeration name underlying → underlying.isIntegral = true) ∧
        ∀ index ∈ entry.referred, index < count := by
  rw [faults, List.append_eq_nil_iff, List.flatMap_eq_nil_iff]
  refine and_congr ?_ (by simp only [danglingFault_eq_nil_iff])
  cases entry <;> simp [underlyingFault]

end TypeEntry

namespace ExprEntry

variable {count : Nat} {entry part : ExprEntry}

theorem literalFault_eq_nil_iff :
    entry.literalFault = [] ↔ ∀ note value, entry = .literal note value → value.Atomic := by
  constructor
  · rintro none note value rfl
    cases value with
    | null => exact .null
    | bool value => exact .bool value
    | number value => exact .number value
    | string value => exact .string value
    | array | object => cases none
  · intro atomic
    unfold literalFault
    split
    · cases atomic _ _ rfl
    · cases atomic _ _ rfl
    · rfl

/-- An expression whose own place, literal and type are as they should be. -/
structure Sound (count : Nat) (entry : ExprEntry) : Prop where
  placed : ∀ loc, entry.note.loc = some loc → loc.start ≤ loc.stop
  typed : ∀ index, entry.note.convertedType = some index → index < count
  atomic : ∀ note value, entry = .literal note value → value.Atomic

/-- An expression has no faults when everything that stands in it is as it should be. -/
theorem faults_eq_nil_iff :
    entry.faults count = [] ↔ ∀ part, Inside part entry → part.Sound count := by
  induction entry using immediate_induction with
  | step entry ih =>
    rw [faults_eq]
    simp only [List.append_eq_nil_iff, Note.placeFault_eq_nil_iff, literalFault_eq_nil_iff,
      List.flatMap_eq_nil_iff, Note.typeFault_eq_nil_iff]
    constructor
    · rintro ⟨placed, atomic, deeper, typed⟩ part inside
      cases inside with
      | here => exact ⟨placed, typed, atomic⟩
      | deeper listed inside => exact (ih _ listed).mp (deeper _ listed) part inside
    · intro sound
      obtain ⟨placed, typed, atomic⟩ := sound entry .here
      refine ⟨placed, atomic, ?_, typed⟩
      intro child listed
      exact (ih child listed).mpr fun part inside => sound part (.deeper listed inside)

end ExprEntry

namespace UnitDump

/-- An expression stands somewhere in the trees of a dump. -/
def Holds (dump : UnitDump) (entry : ExprEntry) : Prop :=
  ∃ root ∈ dump.roots, entry.Inside root

theorem faults_eq_nil_iff {dump : UnitDump} :
    dump.faults = [] ↔
      (∀ name underlying, .enumeration name underlying ∈ dump.types →
        underlying.isIntegral = true) ∧
      (∀ entry ∈ dump.types, ∀ index ∈ entry.referred, index < dump.types.length) ∧
      ∀ entry, dump.Holds entry → entry.Sound dump.types.length := by
  rw [faults, List.append_eq_nil_iff, List.flatMap_eq_nil_iff, List.flatMap_eq_nil_iff]
  simp only [TypeEntry.faults_eq_nil_iff, ExprEntry.faults_eq_nil_iff]
  constructor
  · rintro ⟨types, roots⟩
    refine ⟨?_, fun entry listed => (types entry listed).2, ?_⟩
    · intro name underlying listed
      exact (types _ listed).1 name underlying rfl
    · rintro entry ⟨root, isRoot, inside⟩
      exact roots root isRoot entry inside
  · rintro ⟨integral, known, sound⟩
    constructor
    · intro entry listed
      refine ⟨?_, known entry listed⟩
      rintro name underlying rfl
      exact integral name underlying listed
    · intro root isRoot entry inside
      exact sound entry ⟨root, isRoot, inside⟩

/-- Loading accepts exactly the dumps without faults, and refuses any other with its first fault:
of the type entries in order, each with its fields in order, and then of the roots in order. A dump
has no faults when every enumeration stores its values in an integral scalar, every reference to a
type, from a type or from an expression, is to one that is declared, every place ends where it
starts or after that, and every literal is null, a boolean, a number or a string. -/
theorem load_stops_at_first_fault (dump : UnitDump) (store : Store) :
    let count := dump.types.length
    let outcome := (dump.load store).1
    ((∃ unit, outcome = .ok unit) ↔
      (∀ name underlying, .enumeration name underlying ∈ dump.types →
        underlying.isIntegral = true) ∧
      (∀ entry ∈ dump.types, ∀ index ∈ entry.referred, index < count) ∧
      ∀ entry, dump.Holds entry → entry.Sound count) ∧
      ∀ cause, outcome = .error cause ↔ dump.faults.head? = some cause := by
  intro count outcome
  have stops : StopsAtFirst dump.faults outcome := .dump dump store
  exact ⟨stops.ok_iff.trans faults_eq_nil_iff, stops.error_iff⟩

end UnitDump
end QueryAudit
