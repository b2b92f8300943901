import QueryAudit.Dump.Load
import QueryAudit.Proofs.MovedFindings

/-! Where loading puts a dump. A dump by itself declares kinds and trees whose types are numbered
from zero; loading it into a store puts exactly these past everything the store has, and whether
it is refused does not depend on the store. -/
namespace QueryAudit

variable {ids : Array TypeId} {place : TypeId → TypeId}

/-! ## Loading with other ids -/

theorem typeIdAt_map (index : Nat) :
    typeIdAt (ids.map place) index = (typeIdAt ids index).map place := by
  simp only [typeIdAt, Array.getElem?_map, Array.size_map]
  cases ids[index]? <;> rfl

theorem mapM_map {α β γ ε : Type} {first : α → Except ε β} {second : α → Except ε γ}
    {move : β → γ} (same : ∀ item, second item = (first item).map move) (items : List α) :
    items.mapM second = (items.mapM first).map (List.map move) := by
  induction items with
  | nil => rfl
  | cons item rest ih =>
    rw [List.mapM_cons, List.mapM_cons, same, ih]
    cases first item with
    | error => rfl
    | ok => cases rest.mapM first <;> rfl

/-- A traversal succeeds where its first step and the rest of it do. -/
theorem mapM_cons_ok {α β ε : Type} {load : α → Except ε β} {item : α} {rest : List α}
    {results : List β} :
    (item :: rest).mapM load = .ok results ↔
      ∃ result more, load item = .ok result ∧ rest.mapM load = .ok more ∧
        results = result :: more := by
  rw [List.mapM_cons]
  cases load item with
  | error => simp [bind, Except.bind]
  | ok result =>
    cases rest.mapM load with
    | error => simp [bind, Except.bind]
    | ok more => simp [bind, Except.bind, pure, Except.pure, eq_comm]

/-- What a successful traversal gives, and how many. -/
theorem mapM_ok {α β ε : Type} {load : α → Except ε β} {items : List α} {results : List β}
    (loaded : items.mapM load = .ok results) :
    results.length = items.length ∧ ∀ result ∈ results, ∃ item ∈ items, load item = .ok result := by
  induction items generalizing results with
  | nil =>
    cases loaded
    exact ⟨rfl, by simp⟩
  | cons item rest ih =>
    obtain ⟨result, more, first, later, rfl⟩ := mapM_cons_ok.mp loaded
    obtain ⟨length, origin⟩ := ih later
    refine ⟨by simp [length], ?_⟩
    intro other listed
    rcases List.mem_cons.mp listed with rfl | listed
    · exact ⟨item, List.mem_cons_self, first⟩
    · obtain ⟨source, isListed, sourceLoaded⟩ := origin other listed
      exact ⟨source, List.mem_cons_of_mem _ isListed, sourceLoaded⟩

theorem MemberEntry.load_map (entry : MemberEntry) :
    entry.load (ids.map place) = (entry.load ids).map (Member.move place) := by
  simp only [load, typeIdAt_map]
  cases typeIdAt ids entry.type <;> rfl

theorem TypeEntry.load_map (entry : TypeEntry) :
    entry.load (ids.map place) = (entry.load ids).map (Kind.move place) := by
  cases entry with
  | scalar => rfl
  | enumeration name underlying =>
    simp only [load]
    split <;> rfl
  | anonymous members =>
    simp only [load, mapM_map MemberEntry.load_map]
    cases members.mapM (MemberEntry.load ids) <;> rfl
  | array element rank =>
    simp only [load, typeIdAt_map]
    cases typeIdAt ids element <;> rfl
  | named name arguments =>
    simp only [load, mapM_map typeIdAt_map]
    cases arguments.mapM (typeIdAt ids) <;> rfl

/-- No entry declares a type that is still to be defined. -/
theorem TypeEntry.load_defined (entry : TypeEntry) : entry.load ids ≠ .ok .placeholder := by
  intro loaded
  cases entry with
  | scalar => cases loaded
  | enumeration name underlying =>
    simp only [load] at loaded
    split at loaded <;> cases loaded
  | anonymous members =>
    simp only [load] at loaded
    cases outcome : members.mapM (MemberEntry.load ids) <;> rw [outcome] at loaded <;> cases loaded
  | array element rank =>
    simp only [load] at loaded
    cases outcome : typeIdAt ids element <;> rw [outcome] at loaded <;> cases loaded
  | named name arguments =>
    simp only [load] at loaded
    cases outcome : arguments.mapM (typeIdAt ids) <;> rw [outcome] at loaded <;> cases loaded

theorem Kind.references_move (kind : Kind) :
    (kind.move place).references = kind.references.map place := by
  cases kind <;> simp [move, references, Member.move]

/-- Keeping the ids in place keeps the array of them. -/
theorem map_ids (keeps : ∀ id ∈ ids, place id = id) : ids.map place = ids := by
  rw [Array.map_congr_left keeps, Array.map_id']

/-- A declared kind refers to the given ids only. -/
theorem TypeEntry.references_of_load {entry : TypeEntry} {kind : Kind} {inner : TypeId}
    (loaded : entry.load ids = .ok kind) (referred : inner ∈ kind.references) : inner ∈ ids := by
  apply @TypeId.known_of_fixed (· ∈ ids)
  intro place keeps
  have again : entry.load (ids.map place) = .ok (kind.move place) := by
    rw [entry.load_map, loaded]
    rfl
  rw [map_ids keeps, loaded] at again
  have fixed : kind.references.map place = kind.references.map id := by
    rw [← kind.references_move, ← Except.ok.inj again, List.map_id]
  exact List.map_inj_left.mp fixed inner referred

theorem Note.loadFacts_map (note : Note) :
    note.loadFacts (ids.map place) = (note.loadFacts ids).map (Facts.retype place) := by
  unfold loadFacts
  cases note.convertedType with
  | none => rfl
  | some index =>
    simp only [typeIdAt_map]
    cases typeIdAt ids index <;> rfl

namespace ExprEntry

mutual

/-- Loading with other ids gives the moved tree, or the same fault. -/
theorem load_map (entry : ExprEntry) :
    entry.load (ids.map place) = (entry.load ids).map (Expr.retype place) := by
  cases entry with
  | anonymous note members =>
    simp only [load, loadSlots_map members, note.loadFacts_map]
    cases note.load <;> cases loadSlots ids members <;> cases note.loadFacts ids <;> rfl
  | call note callee arguments resolved =>
    simp only [load, load_map callee, loadSlots_map arguments, note.loadFacts_map]
    cases note.load <;> cases callee.load ids <;> cases loadSlots ids arguments <;>
      cases note.loadFacts ids <;> rfl
  | cast note typeName value =>
    simp only [load, load_map value, note.loadFacts_map]
    cases note.load <;> cases value.load ids <;> cases note.loadFacts ids <;> rfl
  | identifier note name =>
    simp only [load, note.loadFacts_map]
    cases note.load <;> cases note.loadFacts ids <;> rfl
  | lambda note parameters body =>
    simp only [load, load_map body, note.loadFacts_map]
    cases note.load <;> cases body.load ids <;> cases note.loadFacts ids <;> rfl
  | literal note value =>
    simp only [load, note.loadFacts_map]
    cases note.load <;> cases Literal.load value <;> cases note.loadFacts ids <;> rfl
  | member note left name =>
    simp only [load, load_map left, note.loadFacts_map]
    cases note.load <;> cases left.load ids <;> cases note.loadFacts ids <;> rfl
  | paren note value =>
    simp only [load, load_map value, note.loadFacts_map]
    cases note.load <;> cases value.load ids <;> cases note.loadFacts ids <;> rfl
  | other note text children =>
    simp only [load, loadChildren_map children, note.loadFacts_map]
    cases note.load <;> cases loadChildren ids children <;> cases note.loadFacts ids <;> rfl

theorem loadSlots_map (slots : List (SlotEntry ExprEntry)) :
    loadSlots (ids.map place) slots = (loadSlots ids slots).map (Expr.retypeSlots place) := by
  cases slots with
  | nil => rfl
  | cons slot rest =>
    obtain ⟨name, value⟩ := slot
    simp only [loadSlots, load_map value, loadSlots_map rest]
    cases value.load ids with
    | error => rfl
    | ok value =>
      cases loadSlots ids rest with
      | error => rfl
      | ok rest =>
        simp only [Except.map, bind, Except.bind, pure, Except.pure, Expr.remarkSlots,
          Expr.loc_retype]
        rfl

theorem loadChildren_map (children : List ExprEntry) :
    loadChildren (ids.map place) children =
      (loadChildren ids children).map (Expr.retypeChildren place) := by
  cases children with
  | nil => rfl
  | cons child rest =>
    simp only [loadChildren, load_map child, loadChildren_map rest]
    cases child.load ids <;> cases loadChildren ids rest <;> rfl

end

/-- Loaded trees refer to the given ids only. -/
theorem loadChildren_within {entries : List ExprEntry} {roots : List Expr}
    (loaded : loadChildren ids entries = .ok roots) : Expr.Within (· ∈ ids) roots := by
  intro place keeps
  have again : loadChildren (ids.map place) entries = .ok (Expr.retypeChildren place roots) := by
    rw [loadChildren_map, loaded]
    rfl
  rw [map_ids keeps, loaded] at again
  exact (Except.ok.inj again).symm

end ExprEntry

/-! ## Where the types go -/

namespace TypeId

/-- The ids of a number of types, from zero on. -/
def first (count : Nat) : Array TypeId :=
  (Array.range count).map TypeId.mk

/-- An id moved past a number of types. -/
def past (size : Nat) (id : TypeId) : TypeId :=
  ⟨size + id.index⟩

theorem past_injective (size : Nat) : Function.Injective (past size) := by
  intro left right same
  have index : size + left.index = size + right.index := congrArg TypeId.index same
  cases left
  cases right
  simpa using index

theorem mem_first {count : Nat} {id : TypeId} : id ∈ first count ↔ id.index < count := by
  simp only [first, Array.mem_map, Array.mem_range]
  constructor
  · rintro ⟨index, less, rfl⟩
    exact less
  · exact fun less => ⟨id.index, less, rfl⟩

theorem toList_first_past (size count : Nat) :
    ((first count).map (past size)).toList = (List.range' size count).map TypeId.mk := by
  simp [first, past, List.range'_eq_map_range, Function.comp_def]

end TypeId

namespace Store

/-- A store with more types after those that it has. -/
def append (store : Store) (kinds : List Kind) : Store :=
  { store with slots := store.slots ++ kinds.toArray }

theorem size_append (store : Store) (kinds : List Kind) :
    (store.append kinds).size = store.size + kinds.length := by
  simp [append, size]

theorem kind?_append_before {store : Store} {kinds : List Kind} {id : TypeId}
    (before : id.index < store.size) : (store.append kinds).kind? id = store.kind? id := by
  rw [kind?, append, Array.getElem?_append_left before]
  rfl

theorem kind?_append {store : Store} {kinds : List Kind} {id : TypeId} {kind : Kind}
    (held : store.kind? id = some kind) : (store.append kinds).kind? id = some kind := by
  have bound : id.index < store.size := (Array.getElem?_eq_some_iff.mp held).1
  rw [kind?_append_before bound, held]

theorem kind?_append_past (store : Store) (kinds : List Kind) (id : TypeId) :
    (store.append kinds).kind? (id.past store.size) = kinds[id.index]? := by
  simp only [kind?, append, TypeId.past, size]
  rw [Array.getElem?_append_right (Nat.le_add_right _ _), Nat.add_sub_cancel_left]
  simp

theorem append_append (store : Store) (left right : List Kind) :
    (store.append left).append right = store.append (left ++ right) := by
  simp [append]

theorem reserveMany_eq (store : Store) (count : Nat) :
    store.reserveMany count =
      ((TypeId.first count).map (TypeId.past store.size),
        store.append (List.replicate count .placeholder)) := by
  induction count with
  | zero => simp [reserveMany, TypeId.first, append]
  | succ count ih =>
    have next : (store.append (List.replicate count .placeholder)).size = store.size + count := by
      rw [size_append, List.length_replicate]
    have ids : (TypeId.first (count + 1)).map (TypeId.past store.size) =
        ((TypeId.first count).map (TypeId.past store.size)).push ⟨store.size + count⟩ := by
      simp [TypeId.first, TypeId.past, Array.range_succ]
    rw [List.replicate_succ', ← append_append, ids, ← next, reserveMany, ih]
    rfl

/-- Filling the first of some slots that were added. -/
theorem define_append (store : Store) (kind : Kind) (rest : List Kind) :
    (store.append (.placeholder :: rest)).define ⟨store.size⟩ kind =
      (.ok (), store.append (kind :: rest)) := by
  have held : (store.append (.placeholder :: rest)).kind? ⟨store.size⟩ = some .placeholder :=
    kind?_append_past store (.placeholder :: rest) ⟨0⟩
  simp only [define, held]
  simp [append, size]

end Store

namespace TypeEntry

/-- What filling reserved slots leaves in them: the kinds that the entries declare, up to the first
entry that is refused, and nothing from there on. -/
inductive Fills (ids : Array TypeId) : List TypeEntry → Except DumpError Unit → List Kind → Prop where
  | done : Fills ids [] (.ok ()) []
  | refused {entry : TypeEntry} {cause : DumpError} (failed : entry.load ids = .error cause)
      (rest : List TypeEntry) :
      Fills ids (entry :: rest) (.error cause) (List.replicate (rest.length + 1) .placeholder)
  | defined {entry : TypeEntry} {kind : Kind} {rest : List TypeEntry}
      {outcome : Except DumpError Unit} {kinds : List Kind} (loaded : entry.load ids = .ok kind)
      (later : Fills ids rest outcome kinds) : Fills ids (entry :: rest) outcome (kind :: kinds)

/-- Reserved slots are filled in order. A slot is free when its turn comes, so the store itself
refuses nothing. -/
theorem loadAll_fills (ids : Array TypeId) (store : Store) (entries : List TypeEntry) :
    let loaded := loadAll ids (store.append (List.replicate entries.length .placeholder))
      (((List.range' store.size entries.length).map TypeId.mk).zip entries)
    ∃ kinds, Fills ids entries loaded.1 kinds ∧ loaded.2 = store.append kinds := by
  induction entries generalizing store with
  | nil => exact ⟨[], .done, rfl⟩
  | cons entry rest ih =>
    simp only [List.length_cons, List.range'_succ, List.map_cons, List.zip_cons_cons]
    cases entryLoaded : entry.load ids with
    | error cause =>
      simp only [loadAll, entryLoaded]
      exact ⟨_, .refused entryLoaded rest, rfl⟩
    | ok kind =>
      have grown : (store.append [kind]).size = store.size + 1 := store.size_append [kind]
      have later := ih (store.append [kind])
      rw [Store.append_append, grown] at later
      obtain ⟨kinds, fills, filled⟩ := later
      simp only [List.singleton_append] at fills filled
      simp only [loadAll, entryLoaded, List.replicate_succ, Store.define_append]
      refine ⟨kind :: kinds, .defined entryLoaded fills, ?_⟩
      rw [filled, Store.append_append]
      rfl

/-- Filling slots is refused where loading the entries one after the other is, and leaves their
kinds when it is not. -/
theorem Fills.mapM {ids : Array TypeId} {entries : List TypeEntry} {outcome : Except DumpError Unit}
    {kinds : List Kind} (fills : Fills ids entries outcome kinds) :
    outcome = (entries.mapM (load ids)).map (fun _ => ()) ∧
      ∀ declared, entries.mapM (load ids) = .ok declared → kinds = declared := by
  induction fills with
  | done =>
    refine ⟨rfl, ?_⟩
    rintro declared ⟨⟩
    rfl
  | refused failed rest =>
    rw [List.mapM_cons, failed]
    exact ⟨rfl, fun declared loaded => by cases loaded⟩
  | @defined entry kind rest outcome kinds loaded later ih =>
    rw [List.mapM_cons, loaded]
    obtain ⟨same, left⟩ := ih
    cases restLoaded : rest.mapM (load ids) with
    | error cause =>
      rw [restLoaded] at same
      exact ⟨same, fun declared loaded => by cases loaded⟩
    | ok more =>
      rw [restLoaded] at same
      refine ⟨same, ?_⟩
      rintro declared ⟨⟩
      rw [left more restLoaded]

end TypeEntry

/-! ## A dump by itself -/

/-- What a dump declares by itself: the kinds of its types and its trees, with types numbered
from zero. -/
structure Contents where
  kinds : List Kind
  roots : List Expr

namespace Contents

/-- A store with the types of a dump and nothing else. -/
def types (contents : Contents) : Store :=
  ⟨contents.kinds.toArray, ∅⟩

theorem kind?_types (contents : Contents) (id : TypeId) :
    contents.types.kind? id = contents.kinds[id.index]? := by
  simp [types, Store.kind?]

theorem knows_types {contents : Contents} {id : TypeId} :
    contents.types.Knows id ↔ id ∈ TypeId.first contents.kinds.length := by
  rw [Store.Knows, kind?_types, TypeId.mem_first]
  simp

/-- The types of a dump lie where they were added. -/
theorem lies (contents : Contents) (store : Store) :
    contents.types.LiesIn (store.append (contents.kinds.map (Kind.move (TypeId.past store.size))))
      (TypeId.past store.size) := by
  refine ⟨TypeId.past_injective _, ?_⟩
  intro id kind held
  rw [kind?_types] at held
  rw [Store.kind?_append_past, List.getElem?_map, held, Option.map_some]

end Contents

namespace UnitDump

/-- The contents of a dump, or the first fault in it. -/
def contents (dump : UnitDump) : Except DumpError Contents := do
  let ids := TypeId.first dump.types.length
  let kinds ← dump.types.mapM (TypeEntry.load ids)
  let roots ← ExprEntry.loadChildren ids dump.roots
  return ⟨kinds, roots⟩

/-- Every kind of the contents is declared by an entry, and every tree by a root. -/
theorem contents_ok {dump : UnitDump} {contents : Contents}
    (declared : dump.contents = .ok contents) :
    dump.types.mapM (TypeEntry.load (TypeId.first contents.kinds.length)) = .ok contents.kinds ∧
      ExprEntry.loadChildren (TypeId.first contents.kinds.length) dump.roots =
        .ok contents.roots := by
  unfold UnitDump.contents at declared
  cases typed : dump.types.mapM (TypeEntry.load (TypeId.first dump.types.length)) with
  | error cause => simp [typed, bind, Except.bind] at declared
  | ok kinds =>
    cases rooted : ExprEntry.loadChildren (TypeId.first dump.types.length) dump.roots with
    | error cause => simp [typed, rooted, bind, Except.bind] at declared
    | ok roots =>
      simp only [typed, rooted, bind, Except.bind, pure, Except.pure] at declared
      cases declared
      rw [(mapM_ok typed).1]
      exact ⟨typed, rooted⟩

/-- Loading fills one slot for each type entry, past what was there, and then loads the roots. -/
theorem load_fills (dump : UnitDump) (store : Store) :
    let ids := (TypeId.first dump.types.length).map (TypeId.past store.size)
    ∃ typed kinds, TypeEntry.Fills ids dump.types typed kinds ∧
      dump.load store = (do
        typed
        let roots ← ExprEntry.loadChildren ids dump.roots
        return ⟨dump.file, dump.text, roots⟩, store.append kinds) := by
  intro ids
  obtain ⟨kinds, fills, filled⟩ := TypeEntry.loadAll_fills ids store dump.types
  refine ⟨_, kinds, fills, ?_⟩
  rw [← filled]
  simp only [load, Store.reserveMany_eq, TypeId.toList_first_past]
  rfl

/-- Loading succeeds or fails whatever the store; it puts the contents past what was there. -/
theorem load_eq (dump : UnitDump) (store : Store) :
    (dump.load store).1 = dump.contents.map (fun contents =>
        ⟨dump.file, dump.text, Expr.retypeChildren (TypeId.past store.size) contents.roots⟩) ∧
      ∀ contents, dump.contents = .ok contents → (dump.load store).2 =
        store.append (contents.kinds.map (Kind.move (TypeId.past store.size))) := by
  obtain ⟨typed, kinds, fills, loaded⟩ := dump.load_fills store
  obtain ⟨outcome, filled⟩ := fills.mapM
  rw [mapM_map TypeEntry.load_map] at outcome filled
  simp only [loaded, outcome, contents, ExprEntry.loadChildren_map]
  cases declared : dump.types.mapM (TypeEntry.load (TypeId.first dump.types.length)) with
  | error cause => exact ⟨rfl, fun contents declared => by cases declared⟩
  | ok kinds =>
    cases ExprEntry.loadChildren (TypeId.first dump.types.length) dump.roots with
    | error cause => exact ⟨rfl, fun contents declared => by cases declared⟩
    | ok roots =>
      refine ⟨rfl, ?_⟩
      rintro contents ⟨⟩
      rw [filled _ (by rw [declared]; rfl)]

variable {dump : UnitDump} {contents : Contents}

/-- The types of a dump by itself are all defined and refer to each other only. -/
theorem contents_selfContained (declared : dump.contents = .ok contents) :
    contents.types.SelfContained := by
  obtain ⟨typed, _⟩ := contents_ok declared
  constructor
  · intro id held
    rw [Contents.kind?_types] at held
    obtain ⟨entry, _, loaded⟩ := (mapM_ok typed).2 _ (List.mem_of_getElem? held)
    exact entry.load_defined loaded
  · intro outer kind held inner referred
    rw [Contents.kind?_types] at held
    obtain ⟨entry, _, loaded⟩ := (mapM_ok typed).2 _ (List.mem_of_getElem? held)
    exact Contents.knows_types.mpr (TypeEntry.references_of_load loaded referred)

/-- The trees of a dump by itself refer to its types only. -/
theorem contents_within (declared : dump.contents = .ok contents) :
    Expr.Within contents.types.Knows contents.roots := by
  intro place keeps
  obtain ⟨_, rooted⟩ := contents_ok declared
  exact ExprEntry.loadChildren_within rooted place
    fun id listed => keeps id (Contents.knows_types.mpr listed)

end UnitDump
end QueryAudit
