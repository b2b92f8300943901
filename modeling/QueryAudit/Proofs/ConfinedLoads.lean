import Mathlib.Logic.Relation
import QueryAudit.Proofs.LoadedUnits

/-! What loading does to a store. It adds one slot for each type entry and touches no other,
wherever it stops; the types that it adds, and those that the loaded trees mention, lead to no type
outside of these slots. -/
namespace QueryAudit

/-! ## Type entries -/

/-- The ids of a number of slots after those that a store has. -/
abbrev TypeId.following (size count : Nat) : Array TypeId :=
  (first count).map (past size)

/-- The slots after those that a store has. -/
theorem TypeId.mem_following {size count : Nat} {id : TypeId} :
    id ∈ following size count ↔ size ≤ id.index ∧ id.index < size + count := by
  simp only [Array.mem_map, mem_first]
  constructor
  · rintro ⟨origin, less, rfl⟩
    simp only [past]
    omega
  · rintro ⟨least, less⟩
    refine ⟨⟨id.index - size⟩, by simp only; omega, ?_⟩
    simp only [past, Nat.add_sub_cancel' least]

namespace TypeEntry

/-- The kind that an entry describes, when the entry at each position has the given id. -/
def kind (idOf : Nat → TypeId) : TypeEntry → Kind
  | scalar own => .scalar own
  | enumeration name underlying => .enumeration name underlying
  | anonymous members => .anonymous (members.map fun member => ⟨member.name, idOf member.type⟩)
  | array element rank => .array (idOf element) (max rank 1)
  | named name arguments => .named name (arguments.map idOf)

/-- An entry that can be taken up among a number of entries: it refers to these only, and an
enumeration stores its values in an integral scalar. -/
def Sound (count : Nat) : TypeEntry → Prop
  | scalar _ => True
  | enumeration _ underlying => underlying.isIntegral = true
  | anonymous members => ∀ member ∈ members, member.type < count
  | array element _ => element < count
  | named _ arguments => ∀ argument ∈ arguments, argument < count

theorem kind_ne_placeholder (idOf : Nat → TypeId) (entry : TypeEntry) :
    entry.kind idOf ≠ .placeholder := by
  cases entry <;> simp [kind]

end TypeEntry

section

variable {size count : Nat}

theorem typeIdAt_ok_iff (index : Nat) (id : TypeId) :
    typeIdAt (TypeId.following size count) index = .ok id ↔
      index < count ∧ id = ⟨size + index⟩ := by
  by_cases less : index < count
  · simp [typeIdAt, TypeId.first, TypeId.past, less, eq_comm]
  · simp [typeIdAt, TypeId.first, less]

/-- A traversal succeeds when every item is accepted, and gives what is made of each. -/
theorem mapM_ok_iff {α β ε : Type} {load : α → Except ε β} {accepts : α → Prop} {make : α → β}
    (each : ∀ item result, load item = .ok result ↔ accepts item ∧ result = make item)
    {items : List α} {results : List β} :
    items.mapM load = .ok results ↔ (∀ item ∈ items, accepts item) ∧ results = items.map make := by
  induction items generalizing results with
  | nil => simp [pure, Except.pure, eq_comm]
  | cons item rest ih =>
    simp only [mapM_cons_ok, each, ih, List.forall_mem_cons, List.map_cons]
    constructor
    · rintro ⟨_, _, ⟨first, rfl⟩, ⟨later, rfl⟩, rfl⟩
      exact ⟨⟨first, later⟩, rfl⟩
    · rintro ⟨⟨first, later⟩, rfl⟩
      exact ⟨_, _, ⟨first, rfl⟩, ⟨later, rfl⟩, rfl⟩

theorem map_ok_iff {α β ε : Type} {outcome : Except ε α} {wrap : α → β} {result : β} :
    outcome.map wrap = .ok result ↔ ∃ inner, outcome = .ok inner ∧ result = wrap inner := by
  cases outcome with
  | error cause => simp [Except.map]
  | ok inner => simp [Except.map, eq_comm]

theorem map_error_iff {α β ε : Type} {outcome : Except ε α} {wrap : α → β} {cause : ε} :
    outcome.map wrap = .error cause ↔ outcome = .error cause := by
  cases outcome <;> simp [Except.map]

theorem MemberEntry.load_ok_iff (entry : MemberEntry) (member : Member) :
    entry.load (TypeId.following size count) = .ok member ↔
      entry.type < count ∧ member = ⟨entry.name, ⟨size + entry.type⟩⟩ := by
  have shape : entry.load (TypeId.following size count) =
      (typeIdAt (TypeId.following size count) entry.type).map (Member.mk entry.name) := by
    unfold load
    cases typeIdAt (TypeId.following size count) entry.type <;> rfl
  rw [shape, map_ok_iff]
  simp [typeIdAt_ok_iff]

/-- A sound entry loads as the kind that it describes, and no other entry loads. -/
theorem TypeEntry.load_ok_iff (entry : TypeEntry) (kind : Kind) :
    entry.load (TypeId.following size count) = .ok kind ↔
      entry.Sound count ∧ kind = entry.kind (fun position => ⟨size + position⟩) := by
  cases entry with
  | scalar own => simp [load, Sound, TypeEntry.kind, eq_comm]
  | enumeration name underlying =>
    by_cases integral : underlying.isIntegral
    · simp [load, Sound, TypeEntry.kind, integral, eq_comm]
    · simp [load, Sound, integral]
  | anonymous members =>
    simp only [load, map_ok_iff, mapM_ok_iff MemberEntry.load_ok_iff, Sound, TypeEntry.kind,
      and_assoc, exists_and_left, exists_eq_left]
  | array element rank =>
    have shape : load (TypeId.following size count) (.array element rank) =
        (typeIdAt (TypeId.following size count) element).map (.array · (max rank 1)) := by
      simp only [load]
      cases typeIdAt (TypeId.following size count) element <;> rfl
    simp only [shape, map_ok_iff, typeIdAt_ok_iff, Sound, TypeEntry.kind, and_assoc,
      exists_and_left, exists_eq_left]
  | named name arguments =>
    simp only [load, map_ok_iff, mapM_ok_iff typeIdAt_ok_iff, Sound, TypeEntry.kind, and_assoc,
      exists_and_left, exists_eq_left]

/-! ## Filled slots -/

namespace TypeEntry.Fills

variable {ids : Array TypeId} {entries : List TypeEntry} {outcome : Except DumpError Unit}
  {kinds : List Kind}

theorem length (fills : Fills ids entries outcome kinds) : kinds.length = entries.length := by
  induction fills with
  | done => rfl
  | refused _ rest => simp
  | defined _ _ ih => simp [ih]

/-- When nothing was refused, every entry is sound and its slot holds what it describes. -/
theorem all_sound (fills : Fills (TypeId.following size count) entries outcome kinds)
    (complete : outcome = .ok ()) :
    (∀ entry ∈ entries, entry.Sound count) ∧
      kinds = entries.map (TypeEntry.kind fun position => ⟨size + position⟩) := by
  induction fills with
  | done => simp
  | refused _ _ => cases complete
  | @defined entry kind rest outcome kinds loaded later ih =>
    obtain ⟨sound, rfl⟩ := (entry.load_ok_iff kind).mp loaded
    obtain ⟨restSound, rfl⟩ := ih complete
    exact ⟨List.forall_mem_cons.mpr ⟨sound, restSound⟩, rfl⟩

/-- What is refused is the first entry that is not sound. The slots before it hold what their
entries describe, and the others nothing. -/
theorem first_unsound {cause : DumpError}
    (fills : Fills (TypeId.following size count) entries outcome kinds)
    (failed : outcome = .error cause) :
    ∃ before entry rest, entries = before ++ entry :: rest ∧
      (∀ earlier ∈ before, earlier.Sound count) ∧ ¬ entry.Sound count ∧
      entry.load (TypeId.following size count) = .error cause ∧
      kinds = before.map (TypeEntry.kind fun position => ⟨size + position⟩) ++
        List.replicate (rest.length + 1) .placeholder := by
  induction fills with
  | done => cases failed
  | @refused entry found refused rest =>
    cases failed
    have unsound : ¬ entry.Sound count := by
      intro sound
      have loaded : entry.load (TypeId.following size count) = .ok _ :=
        (entry.load_ok_iff _).mpr ⟨sound, rfl⟩
      rw [refused] at loaded
      cases loaded
    exact ⟨[], entry, rest, rfl, by simp, unsound, refused, rfl⟩
  | @defined head kind rest outcome kinds loaded later ih =>
    obtain ⟨sound, rfl⟩ := (head.load_ok_iff kind).mp loaded
    obtain ⟨before, entry, after, rfl, earlier, unsound, refused, rfl⟩ := ih failed
    exact ⟨head :: before, entry, after, rfl, List.forall_mem_cons.mpr ⟨sound, earlier⟩, unsound,
      refused, rfl⟩

end TypeEntry.Fills

end

/-! ## Faults -/

/-- An outcome that is no complaint about a slot that is missing or taken. -/
def SlotsFit {α : Type} (outcome : Except DumpError α) : Prop :=
  ∀ id, outcome ≠ .error (.store (.unknownType id)) ∧
    outcome ≠ .error (.store (.alreadyDefined id))

namespace SlotsFit

variable {α β : Type} {ids : Array TypeId}

theorem ok (value : α) : SlotsFit (.ok value : Except DumpError α) := by
  simp [SlotsFit]

theorem bind {outcome : Except DumpError α} {next : α → Except DumpError β}
    (first : SlotsFit outcome) (later : ∀ value, SlotsFit (next value)) :
    SlotsFit (outcome >>= next) := by
  cases outcome with
  | error cause => simpa [SlotsFit, Bind.bind, Except.bind] using first
  | ok value => exact later value

theorem map {outcome : Except DumpError α} (fits : SlotsFit outcome) (wrap : α → β) :
    SlotsFit (outcome.map wrap) := by
  cases outcome with
  | error cause => simpa [SlotsFit, Except.map] using fits
  | ok value => exact ok (wrap value)

theorem mapM {load : α → Except DumpError β} (each : ∀ item, SlotsFit (load item))
    (items : List α) : SlotsFit (items.mapM load) := by
  induction items with
  | nil => exact ok []
  | cons item rest ih =>
    rw [List.mapM_cons]
    exact (each item).bind fun _ => ih.bind fun _ => ok _

theorem typeIdAt (index : Nat) : SlotsFit (typeIdAt ids index) := by
  unfold QueryAudit.typeIdAt
  cases ids[index]? <;> simp [SlotsFit]

theorem typeEntry (entry : TypeEntry) : SlotsFit (entry.load ids) := by
  cases entry with
  | scalar own => exact ok _
  | enumeration name underlying =>
    unfold TypeEntry.load
    by_cases integral : underlying.isIntegral <;> simp [SlotsFit, integral]
  | anonymous members =>
    have each (member : MemberEntry) : SlotsFit (member.load ids) :=
      (typeIdAt member.type).bind fun _ => ok _
    exact (mapM each members).map _
  | array element rank => exact (typeIdAt element).bind fun _ => ok _
  | named name arguments => exact (mapM typeIdAt arguments).map _

theorem note (note : Note) : SlotsFit note.load := by
  unfold Note.load
  cases note.loc with
  | none => exact ok _
  | some loc => by_cases turned : loc.stop < loc.start <;> simp [SlotsFit, turned]

theorem facts (note : Note) : SlotsFit (note.loadFacts ids) := by
  unfold Note.loadFacts
  cases note.convertedType with
  | none => exact ok _
  | some index => exact (typeIdAt index).bind fun _ => ok _

theorem literal (value : Json) : SlotsFit (Literal.load value) := by
  cases value <;> simp [SlotsFit, Literal.load]

mutual

/-- Expressions are loaded without a look at the store. -/
theorem expr (entry : ExprEntry) : SlotsFit (entry.load ids) := by
  cases entry with
  | anonymous own members =>
    exact (note own).bind fun _ => (slots members).bind fun _ => (facts own).bind fun _ => ok _
  | call own callee arguments resolved =>
    exact (note own).bind fun _ => (expr callee).bind fun _ => (slots arguments).bind fun _ =>
      (facts own).bind fun _ => ok _
  | cast own typeName value =>
    exact (note own).bind fun _ => (expr value).bind fun _ => (facts own).bind fun _ => ok _
  | identifier own name => exact (note own).bind fun _ => (facts own).bind fun _ => ok _
  | lambda own parameters body =>
    exact (note own).bind fun _ => (expr body).bind fun _ => (facts own).bind fun _ => ok _
  | literal own value =>
    exact (note own).bind fun _ => (literal value).bind fun _ => (facts own).bind fun _ => ok _
  | member own left name =>
    exact (note own).bind fun _ => (expr left).bind fun _ => (facts own).bind fun _ => ok _
  | paren own value =>
    exact (note own).bind fun _ => (expr value).bind fun _ => (facts own).bind fun _ => ok _
  | other own text parts =>
    exact (note own).bind fun _ => (children parts).bind fun _ => (facts own).bind fun _ => ok _

theorem slots (entries : List (SlotEntry ExprEntry)) :
    SlotsFit (ExprEntry.loadSlots ids entries) := by
  cases entries with
  | nil => exact ok []
  | cons slot rest => exact (expr slot.value).bind fun _ => (slots rest).bind fun _ => ok _

theorem children (entries : List ExprEntry) : SlotsFit (ExprEntry.loadChildren ids entries) := by
  cases entries with
  | nil => exact ok []
  | cons child rest => exact (expr child).bind fun _ => (children rest).bind fun _ => ok _

end

/-- Slots are filled without a complaint of the store. -/
theorem fills {entries : List TypeEntry} {outcome : Except DumpError Unit} {kinds : List Kind}
    (fills : TypeEntry.Fills ids entries outcome kinds) : SlotsFit outcome := by
  induction fills with
  | done => exact ok ()
  | @refused entry cause failed rest =>
    have fits : SlotsFit (entry.load ids) := typeEntry entry
    rw [failed] at fits
    simpa [SlotsFit] using fits
  | defined _ _ ih => exact ih

end SlotsFit

/-! ## Reachable types -/

/-- A type of the store refers to another. -/
def Store.Refers (store : Store) (outer inner : TypeId) : Prop :=
  ∃ kind, store.kind? outer = some kind ∧ inner ∈ kind.references

/-- The types that trees mention are known, when the trees refer to known types only. -/
theorem Expr.Within.converted {known : TypeId → Prop} {roots : List Expr} {node : Node}
    {type : TypeId} (within : Expr.Within known roots) (listed : node ∈ Expr.childNodes roots)
    (converted : node.mark.facts.convertedType = some type) : known type := by
  apply TypeId.known_of_fixed
  intro place keeps
  have stay : Expr.remarkChildren (Mark.retype place) roots = roots := within place keeps
  have nodes : (Expr.childNodes roots).map (Node.remark (Mark.retype place)) =
      (Expr.childNodes roots).map id := by
    rw [← Expr.childNodes_remark, stay, List.map_id]
  have same : Node.remark (Mark.retype place) node = node :=
    List.map_inj_left.mp nodes node listed
  have types : node.mark.facts.convertedType.map place = node.mark.facts.convertedType :=
    congrArg (fun node => node.mark.facts.convertedType) same
  rw [converted] at types
  exact Option.some.inj types

namespace Store

variable {store : Store}

/-- Slots filled with what sound entries describe refer to each other only. -/
theorem refers_following {entries : List TypeEntry}
    (sound : ∀ entry ∈ entries, entry.Sound entries.length)
    {outer inner : TypeId} (isNew : outer ∈ TypeId.following store.size entries.length)
    (refers : (store.append (entries.map
      (TypeEntry.kind fun position => ⟨store.size + position⟩))).Refers outer inner) :
    inner ∈ TypeId.following store.size entries.length := by
  obtain ⟨origin, _, rfl⟩ := Array.mem_map.mp isNew
  obtain ⟨kind, held, referred⟩ := refers
  rw [kind?_append_past, List.getElem?_map, Option.map_eq_some_iff] at held
  obtain ⟨entry, found, rfl⟩ := held
  have loaded : entry.load (TypeId.following store.size entries.length) = .ok _ :=
    (entry.load_ok_iff _).mpr ⟨sound entry (List.mem_of_getElem? found), rfl⟩
  exact TypeEntry.references_of_load loaded referred

/-- So nothing else is reached from them. -/
theorem reach_following {entries : List TypeEntry}
    (sound : ∀ entry ∈ entries, entry.Sound entries.length)
    {start id : TypeId} (isNew : start ∈ TypeId.following store.size entries.length)
    (reached : Relation.ReflTransGen (store.append (entries.map
      (TypeEntry.kind fun position => ⟨store.size + position⟩))).Refers start id) :
    id ∈ TypeId.following store.size entries.length := by
  induction reached with
  | refl => exact isNew
  | tail _ refers ih => exact refers_following sound ih refers

end Store

/-! ## Loading -/

namespace UnitDump

/-- All that loading can do. It stops at the first entry that is not sound, or it fills every slot
and is decided by the roots. -/
theorem load_cases (dump : UnitDump) (store : Store) :
    let ids := TypeId.following store.size dump.types.length
    let kindOf := TypeEntry.kind fun position => ⟨store.size + position⟩
    ∃ kinds, kinds.length = dump.types.length ∧ (dump.load store).2 = store.append kinds ∧
      ((∃ cause, (dump.load store).1 = .error cause ∧
          ∃ before entry rest, dump.types = before ++ entry :: rest ∧
            (∀ earlier ∈ before, earlier.Sound dump.types.length) ∧
            ¬ entry.Sound dump.types.length ∧ entry.load ids = .error cause ∧
            kinds = before.map kindOf ++ List.replicate (rest.length + 1) .placeholder) ∨
        ((∀ entry ∈ dump.types, entry.Sound dump.types.length) ∧ kinds = dump.types.map kindOf ∧
          (dump.load store).1 = (ExprEntry.loadChildren ids dump.roots).map
            (⟨dump.file, dump.text, ·⟩))) := by
  intro ids kindOf
  obtain ⟨typed, kinds, fills, loaded⟩ := dump.load_fills store
  rw [loaded]
  refine ⟨kinds, fills.length, rfl, ?_⟩
  cases typed with
  | error cause => exact .inl ⟨cause, rfl, fills.first_unsound rfl⟩
  | ok =>
    obtain ⟨sound, filled⟩ := fills.all_sound rfl
    refine .inr ⟨sound, filled, ?_⟩
    change (ExprEntry.loadChildren ids dump.roots >>= _) = _
    cases ExprEntry.loadChildren ids dump.roots <;> rfl

theorem load_slotsFit (dump : UnitDump) (store : Store) : SlotsFit (dump.load store).1 := by
  obtain ⟨typed, kinds, fills, loaded⟩ := dump.load_fills store
  rw [loaded]
  exact (SlotsFit.fills fills).bind fun _ => (SlotsFit.children dump.roots).bind fun _ => .ok _

/-- Loading is confined to slots of its own: one for each type entry, after those that the store
had. A dump that is taken up fills them with what its entries describe, and neither they nor its
trees lead to a type elsewhere. A refused one has filled those before the first entry that is not
sound, or all of them when the fault lies in the roots; the store itself never complains. -/
theorem load_confined (dump : UnitDump) (store : Store) :
    let count := dump.types.length
    let idOf (position : Nat) : TypeId := ⟨store.size + position⟩
    let isNew (id : TypeId) : Prop := store.size ≤ id.index ∧ id.index < store.size + count
    let ids := (store.reserveMany count).1
    let outcome := (dump.load store).1
    let after := (dump.load store).2
    ∃ added : List Kind, added.length = count ∧
      after.size = store.size + count ∧ after.interned = store.interned ∧
      (∀ id, id.index < store.size → after.kind? id = store.kind? id) ∧
      (∀ position, after.kind? (idOf position) = added[position]?) ∧
      (∀ unit, outcome = .ok unit →
        (∀ entry ∈ dump.types, entry.Sound count) ∧
        added = dump.types.map (TypeEntry.kind idOf) ∧ .placeholder ∉ added ∧
        ∀ start, (isNew start ∨ ∃ node ∈ Expr.childNodes unit.roots,
            node.mark.facts.convertedType = some start) →
          ∀ id, Relation.ReflTransGen after.Refers start id → isNew id) ∧
      (∀ cause, outcome = .error cause →
        (∃ before entry rest, dump.types = before ++ entry :: rest ∧
          (∀ earlier ∈ before, earlier.Sound count) ∧ ¬ entry.Sound count ∧
          entry.load ids = .error cause ∧
          added = before.map (TypeEntry.kind idOf) ++
            List.replicate (rest.length + 1) .placeholder) ∨
        ((∀ entry ∈ dump.types, entry.Sound count) ∧
          ExprEntry.loadChildren ids dump.roots = .error cause ∧
          added = dump.types.map (TypeEntry.kind idOf))) ∧
      ∀ id, outcome ≠ .error (.store (.unknownType id)) ∧
        outcome ≠ .error (.store (.alreadyDefined id)) := by
  intro count idOf isNew ids outcome after
  obtain ⟨kinds, length, grown, stopped⟩ := dump.load_cases store
  have afterEq : after = store.append kinds := grown
  have idsEq : ids = TypeId.following store.size count :=
    congrArg Prod.fst (store.reserveMany_eq count)
  refine ⟨kinds, length, ?_, ?_, ?_, ?_, ?_, ?_, dump.load_slotsFit store⟩
  · rw [afterEq, Store.size_append, length]
  · rw [afterEq]
    rfl
  · intro id before
    rw [afterEq, Store.kind?_append_before before]
  · intro position
    rw [afterEq]
    exact store.kind?_append_past kinds ⟨position⟩
  · intro unit complete
    rcases stopped with ⟨cause, failed, _⟩ | ⟨sound, filled, rooted⟩
    · cases failed.symm.trans complete
    · obtain ⟨roots, loaded, rfl⟩ := map_ok_iff.mp (rooted.symm.trans complete)
      refine ⟨sound, filled, ?_, ?_⟩
      · rw [filled, List.mem_map]
        rintro ⟨entry, _, same⟩
        exact entry.kind_ne_placeholder _ same
      · intro start starts id reached
        rw [afterEq, filled] at reached
        have inside : start ∈ TypeId.following store.size count := by
          rcases starts with isNew | ⟨node, listed, converted⟩
          · exact TypeId.mem_following.mpr isNew
          · exact (ExprEntry.loadChildren_within loaded).converted listed converted
        exact TypeId.mem_following.mp (Store.reach_following sound inside reached)
  · intro cause failed
    rw [idsEq]
    rcases stopped with ⟨found, refused, first⟩ | ⟨sound, filled, rooted⟩
    · cases refused.symm.trans failed
      exact .inl first
    · exact .inr ⟨sound, map_error_iff.mp (rooted.symm.trans failed), filled⟩

end UnitDump
end QueryAudit
