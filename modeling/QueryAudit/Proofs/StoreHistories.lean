import QueryAudit.Types.Store

/-! Stores after any history of operations. An operation looks a kind up, adds a slot or fills a
reserved one, and nothing else; so a slot that is defined stays as it is, and what is remembered
about a kind stays true although filled slots are never remembered. Main statement: interning
gives a kind one id for good, and reserving gives an id that nobody had before. -/
namespace QueryAudit.Store

variable {store before after : Store} {kind : Kind} {id : TypeId} {action : Action}
  {answer : Except StoreError (Option TypeId)}

/-! ## One operation -/

/-- What an operation can do to a store, with the answer it then gives. -/
inductive Change (store : Store) : Except StoreError (Option TypeId) → Store → Prop where
  | refused (cause : StoreError) : Change store (.error cause) store
  | found {kind : Kind} {id : TypeId} (known : store.interned[kind]? = some id) :
      Change store (.ok (some id)) store
  | added {kind : Kind} (solid : kind ≠ .placeholder) (unknown : store.interned[kind]? = none) :
      Change store (.ok (some ⟨store.size⟩))
        ⟨store.slots.push kind, store.interned.insert kind ⟨store.size⟩⟩
  | reserved :
      Change store (.ok (some ⟨store.size⟩)) ⟨store.slots.push .placeholder, store.interned⟩
  | defined {id : TypeId} (kind : Kind) (free : store.kind? id = some .placeholder) :
      Change store (.ok none) ⟨store.slots.setIfInBounds id.index kind, store.interned⟩

theorem intern_placeholder (store : Store) : store.intern .placeholder = store.reserve :=
  rfl

theorem intern_of_known (solid : kind ≠ .placeholder) (known : store.interned[kind]? = some id) :
    store.intern kind = (id, store) := by
  simp only [intern, solid, ↓reduceIte, known]

theorem intern_of_unknown (solid : kind ≠ .placeholder)
    (unknown : store.interned[kind]? = none) :
    store.intern kind =
      (⟨store.size⟩, ⟨store.slots.push kind, store.interned.insert kind ⟨store.size⟩⟩) := by
  simp only [intern, solid, ↓reduceIte, unknown]
  rfl

theorem intern_change (store : Store) (kind : Kind) :
    Change store (.ok (some (store.intern kind).1)) (store.intern kind).2 := by
  by_cases solid : kind = .placeholder
  · rw [solid, intern_placeholder]
    exact .reserved
  · cases known : store.interned[kind]? with
    | some id =>
      rw [intern_of_known solid known]
      exact .found known
    | none =>
      rw [intern_of_unknown solid known]
      exact .added solid known

/-- Every operation makes one of the changes; all but reserving and defining intern a kind. -/
theorem perform_change (store : Store) (action : Action) :
    Change store (store.perform action).1 (store.perform action).2 := by
  cases action with
  | intern | anonymous | array | arrayOfRank | named | generic => exact intern_change store _
  | reserve => exact .reserved
  | define id kind =>
    simp only [perform, define]
    cases held : store.kind? id with
    | none => exact .refused _
    | some current =>
      cases current with
      | placeholder => exact .defined kind held
      | _ => exact .refused _
  | enumeration name underlying =>
    simp only [perform, enumeration]
    cases underlying.isIntegral with
    | true => exact intern_change store _
    | false => exact .refused _

/-- Only defining a slot is answered without an id. -/
theorem define_of_perform (answered : (store.perform action).1 = .ok none) :
    ∃ id kind, action = .define id kind := by
  cases action with
  | define id kind => exact ⟨id, kind, rfl⟩
  | enumeration name underlying =>
    simp only [perform, enumeration] at answered
    cases integral : underlying.isIntegral <;> simp [integral, Except.map] at answered
  | _ => simp [perform, perform.give] at answered

/-! ## What every operation keeps -/

theorem lt_size (held : store.kind? id = some kind) : id.index < store.size :=
  (Array.getElem?_eq_some_iff.mp held).1

theorem kind?_size (store : Store) : store.kind? ⟨store.size⟩ = none := by
  simp [kind?, size]

theorem kind?_push (interned : Std.HashMap Kind TypeId) (held : store.kind? id = some kind)
    (added : Kind) : (Store.mk (store.slots.push added) interned).kind? id = some kind := by
  have inside : id.index < store.slots.size := lt_size held
  rw [kind?, Array.getElem?_push_lt inside, ← Array.getElem?_eq_getElem inside]
  exact held

theorem kind?_pushed (slots : Array Kind) (interned : Std.HashMap Kind TypeId) (kind : Kind) :
    (Store.mk (slots.push kind) interned).kind? ⟨slots.size⟩ = some kind :=
  Array.getElem?_push_size

/-- A later state of a store: defined slots and what is remembered have stayed. -/
structure Extends (before after : Store) : Prop where
  kept : ∀ id kind, kind ≠ .placeholder → before.kind? id = some kind →
    after.kind? id = some kind
  known : ∀ (kind : Kind) (id : TypeId), before.interned[kind]? = some id →
    after.interned[kind]? = some id
  grown : before.size ≤ after.size

theorem Extends.refl (store : Store) : Extends store store :=
  ⟨fun _ _ _ held => held, fun _ _ known => known, Nat.le_refl _⟩

theorem Extends.trans {first second third : Store} (left : Extends first second)
    (right : Extends second third) : Extends first third :=
  ⟨fun id kind solid held => right.kept id kind solid (left.kept id kind solid held),
    fun kind id known => right.known kind id (left.known kind id known),
    Nat.le_trans left.grown right.grown⟩

theorem Change.extends (change : Change before answer after) : Extends before after := by
  cases change with
  | refused | found => exact .refl before
  | @added added solid unknown =>
    refine ⟨fun id kind _ held => kind?_push _ held added, ?_, by simp [size]⟩
    intro kind id known
    have different : added ≠ kind := by
      rintro rfl
      cases unknown.symm.trans known
    simp [Std.HashMap.getElem?_insert, different, known]
  | reserved =>
    exact ⟨fun id kind _ held => kind?_push _ held _, fun _ _ known => known, by simp [size]⟩
  | @defined slot defined free =>
    refine ⟨?_, fun _ _ known => known, by simp [size]⟩
    intro id kind solid held
    -- a slot that holds something else than a placeholder is not the one that is filled
    have different : slot.index ≠ id.index := by
      intro same
      rw [kind?, same] at free
      exact solid (Option.some.inj (held.symm.trans free))
    simpa [kind?, Array.getElem?_setIfInBounds_ne different] using held

/-- What is remembered is true: under the id of a kind stands that kind, which is no placeholder. -/
def Indexed (store : Store) : Prop :=
  ∀ (kind : Kind) (id : TypeId), store.interned[kind]? = some id →
    kind ≠ .placeholder ∧ store.kind? id = some kind

theorem Change.indexed (change : Change before answer after) (indexed : Indexed before) :
    Indexed after := by
  have same (unchanged : after.interned = before.interned) : Indexed after := by
    intro kind id known
    rw [unchanged] at known
    obtain ⟨solid, held⟩ := indexed kind id known
    exact ⟨solid, change.extends.kept id kind solid held⟩
  cases change with
  | refused | found | reserved | defined => exact same rfl
  | @added added solid unknown =>
    intro kind id known
    rw [Std.HashMap.getElem?_insert] at known
    split at known
    · next equal =>
      cases eq_of_beq equal
      cases Option.some.inj known
      exact ⟨solid, kind?_pushed before.slots _ added⟩
    · obtain ⟨solid, held⟩ := indexed kind id known
      exact ⟨solid, kind?_push _ held added⟩

/-- An id that is given out has a slot. -/
theorem Change.answered (change : Change before (.ok (some id)) after) (indexed : Indexed before) :
    id.index < after.size := by
  cases change with
  | found known => exact lt_size (indexed _ _ known).2
  | added | reserved => simp [size]

/-- No slot is left out: every kind in the store is remembered, under each slot that holds it. -/
def Unshared (store : Store) : Prop :=
  ∀ id kind, kind ≠ .placeholder → store.kind? id = some kind → store.interned[kind]? = some id

theorem Unshared.unique {first second : TypeId} (unshared : Unshared store)
    (solid : kind ≠ .placeholder) (left : store.kind? first = some kind)
    (right : store.kind? second = some kind) : first = second :=
  Option.some.inj ((unshared first kind solid left).symm.trans (unshared second kind solid right))

/-- A slot of a store with one more slot is an old one or the last one. -/
theorem kind?_push_cases {slots : Array Kind} {interned : Std.HashMap Kind TypeId} {added : Kind}
    (held : (Store.mk (slots.push added) interned).kind? id = some kind) :
    slots[id.index]? = some kind ∨ id = ⟨slots.size⟩ ∧ kind = added := by
  rw [kind?, Array.getElem?_push] at held
  split at held
  · next last =>
    refine .inr ⟨?_, (Option.some.inj held).symm⟩
    cases id
    exact congrArg TypeId.mk last
  · exact .inl held

/-- Without definitions no kind gets a second slot. -/
theorem Change.unshared (change : Change before answer after) (given : answer ≠ .ok none)
    (unshared : Unshared before) : Unshared after := by
  cases change with
  | refused | found => exact unshared
  | @added added solid unknown =>
    intro id kind kindSolid held
    rcases kind?_push_cases held with old | ⟨rfl, rfl⟩
    · have known := unshared id kind kindSolid old
      have different : added ≠ kind := by
        rintro rfl
        cases unknown.symm.trans known
      simp [Std.HashMap.getElem?_insert, different, known]
    · exact Std.HashMap.getElem?_insert_self
  | reserved =>
    intro id kind solid held
    rcases kind?_push_cases held with old | ⟨_, placeholder⟩
    · exact unshared id kind solid old
    · exact absurd placeholder solid
  | defined => exact absurd rfl given

/-! ## Histories -/

/-- Carries out operations one after the other; gives their answers and the store in the end. -/
def performAll (store : Store) : List Action → List (Except StoreError (Option TypeId)) × Store
  | [] => ([], store)
  | action :: rest =>
    let (answer, changed) := store.perform action
    let (answers, last) := changed.performAll rest
    (answer :: answers, last)

theorem performAll_cons (store : Store) (action : Action) (rest : List Action) :
    store.performAll (action :: rest) =
      ((store.perform action).1 :: ((store.perform action).2.performAll rest).1,
        ((store.perform action).2.performAll rest).2) :=
  rfl

theorem performAll_extends (store : Store) (history : List Action) :
    Extends store (store.performAll history).2 := by
  induction history generalizing store with
  | nil => exact .refl store
  | cons action rest ih => exact (perform_change store action).extends.trans (ih _)

theorem performAll_indexed (indexed : Indexed store) (history : List Action) :
    Indexed (store.performAll history).2 := by
  induction history generalizing store with
  | nil => exact indexed
  | cons action rest ih => exact ih ((perform_change store action).indexed indexed)

theorem performAll_unshared (unshared : Unshared store) (history : List Action)
    (undefined : ∀ id kind, .define id kind ∉ history) :
    Unshared (store.performAll history).2 := by
  induction history generalizing store with
  | nil => exact unshared
  | cons action rest ih =>
    have given : (store.perform action).1 ≠ .ok none := by
      intro answered
      obtain ⟨id, kind, rfl⟩ := define_of_perform answered
      exact undefined id kind List.mem_cons_self
    exact ih ((perform_change store action).unshared given unshared)
      fun id kind listed => undefined id kind (List.mem_cons_of_mem _ listed)

/-- Every id that a history gave out has a slot. -/
theorem performAll_answered (indexed : Indexed store) (history : List Action)
    (given : .ok (some id) ∈ (store.performAll history).1) :
    id.index < (store.performAll history).2.size := by
  induction history generalizing store with
  | nil => cases given
  | cons action rest ih =>
    rw [performAll_cons] at given
    have change := perform_change store action
    rcases List.mem_cons.mp given with first | later
    · rw [← first] at change
      exact Nat.lt_of_lt_of_le (change.answered indexed) (performAll_extends _ rest).grown
    · exact ih (change.indexed indexed) later

/-- A new store is itself the outcome of a history, which interns the scalars. -/
theorem empty_eq :
    empty = (performAll ⟨#[], ∅⟩ (Scalar.all.map fun scalar => .intern (.scalar scalar))).2 :=
  rfl

theorem empty_indexed : Indexed empty := by
  rw [empty_eq]
  exact performAll_indexed (fun kind id known => by simp at known) _

theorem empty_unshared : Unshared empty := by
  rw [empty_eq]
  exact performAll_unshared (fun id kind _ held => by simp [kind?] at held) _ (by simp)

/-! ## Interning -/

/-- Interning finds or makes a slot that holds the kind, and remembers it. -/
theorem intern_held (indexed : Indexed store) (solid : kind ≠ .placeholder) :
    (store.intern kind).2.kind? (store.intern kind).1 = some kind ∧
      (store.intern kind).2.interned[kind]? = some (store.intern kind).1 := by
  cases known : store.interned[kind]? with
  | some id =>
    rw [intern_of_known solid known]
    exact ⟨(indexed kind id known).2, known⟩
  | none =>
    rw [intern_of_unknown solid known]
    exact ⟨kind?_pushed store.slots _ kind, Std.HashMap.getElem?_insert_self⟩

/-- Interning a kind in a store with any history gives an id that holds it. The id stays: interning
the kind again, whatever is done in between, gives the same id and adds nothing, and no other kind
is ever interned under it. Reserving, or interning a placeholder, gives an id that had no slot and
was never given out. As long as nothing is defined, no two slots hold the same kind. -/
theorem intern_over_histories (history : List Action) :
    let store := (empty.performAll history).2
    (∀ kind id interned, kind ≠ .placeholder → store.intern kind = (id, interned) →
      interned.kind? id = some kind ∧
        ∀ further, let later := (interned.performAll further).2
          later.kind? id = some kind ∧ later.intern kind = (id, later) ∧
            ∀ other, other ≠ .placeholder → (later.intern other).1 = id → other = kind) ∧
      (∀ id reserved, store.reserve = (id, reserved) ∨ store.intern .placeholder = (id, reserved) →
        store.kind? id = none ∧ .ok (some id) ∉ (empty.performAll history).1 ∧
          reserved.size = store.size + 1 ∧ reserved.kind? id = some .placeholder) ∧
      ((∀ id kind, .define id kind ∉ history) →
        ∀ first second kind, kind ≠ .placeholder → store.kind? first = some kind →
          store.kind? second = some kind → first = second) := by
  intro store
  have indexed : Indexed store := performAll_indexed empty_indexed history
  refine ⟨?_, ?_, ?_⟩
  · intro kind id interned solid made
    obtain ⟨held, known⟩ := intern_held indexed solid
    have internedIndexed := (intern_change store kind).indexed indexed
    rw [made] at held known internedIndexed
    refine ⟨held, ?_⟩
    intro further later
    have extended : Extends interned later := performAll_extends interned further
    have laterIndexed : Indexed later := performAll_indexed internedIndexed further
    have laterHeld := extended.kept id kind solid held
    refine ⟨laterHeld, intern_of_known solid (extended.known kind id known), ?_⟩
    intro other otherSolid same
    -- the slot of the id holds the other kind now, and it has held the first one all the time
    have otherHeld := (intern_held laterIndexed otherSolid).1
    rw [same] at otherHeld
    have stillHeld := (intern_change later other).extends.kept id kind solid laterHeld
    exact Option.some.inj (otherHeld.symm.trans stillHeld)
  · intro id reserved made
    have next : store.reserve = (id, reserved) := by
      rcases made with made | made
      · exact made
      · rwa [intern_placeholder] at made
    cases next
    refine ⟨kind?_size store, ?_, by simp [size], kind?_pushed store.slots _ _⟩
    intro given
    exact Nat.lt_irrefl _ (performAll_answered empty_indexed history given)
  · intro undefined first second kind solid left right
    exact (performAll_unshared empty_unshared history undefined).unique solid left right

end QueryAudit.Store
