import Mathlib.Data.List.Nodup
import QueryAudit.Proofs.StoreHistories

/-! A store never rewrites what is defined. Whatever was done before, one more operation keeps every
slot that holds something, fills at most one reserved slot, and, when it is refused, leaves no
trace: all that follows is as if it had not been asked for. The first slots hold the scalars, so
that the id of a scalar, which is computed and not looked up, is right for good. -/
namespace QueryAudit.Store

variable {store : Store} {action : Action} {id : TypeId} {kind : Kind} {cause : StoreError}

/-! ## Scalars -/

/-- Interning different kinds that are not remembered adds them in order. -/
theorem slots_performAll_intern {kinds : List Kind} (distinct : kinds.Nodup)
    (solid : .placeholder ∉ kinds) (unknown : ∀ kind ∈ kinds, store.interned[kind]? = none) :
    (store.performAll (kinds.map .intern)).2.slots.toList = store.slots.toList ++ kinds := by
  induction kinds generalizing store with
  | nil => simp [performAll]
  | cons kind rest ih =>
    obtain ⟨fresh, distinctRest⟩ := List.nodup_cons.mp distinct
    obtain ⟨different, solidRest⟩ := List.ne_and_not_mem_of_not_mem_cons solid
    have made : (store.perform (.intern kind)).2 =
        ⟨store.slots.push kind, store.interned.insert kind ⟨store.size⟩⟩ :=
      congrArg Prod.snd (intern_of_unknown (Ne.symm different) (unknown kind List.mem_cons_self))
    have unknownRest : ∀ other ∈ rest,
        (store.interned.insert kind ⟨store.size⟩)[other]? = none := by
      intro other listed
      have apart : kind ≠ other := fun same => fresh (same ▸ listed)
      simp [Std.HashMap.getElem?_insert, apart, unknown other (List.mem_cons_of_mem _ listed)]
    rw [List.map_cons, performAll_cons, made]
    rw [ih distinctRest solidRest unknownRest]
    simp

theorem slots_empty : empty.slots.toList = Scalar.all.map .scalar := by
  have kinds : Scalar.all.map (fun scalar => Action.intern (.scalar scalar)) =
      (Scalar.all.map Kind.scalar).map .intern := by
    rw [List.map_map]
    rfl
  rw [empty_eq, kinds, slots_performAll_intern (by decide) (by decide) (by simp)]
  simp

/-- The scalar at a position is found under that position in every store. -/
theorem kind?_performAll_scalar {index : Nat} {scalar : Scalar}
    (listed : Scalar.all[index]? = some scalar) (history : List Action) :
    (empty.performAll history).2.kind? ⟨index⟩ = some (.scalar scalar) := by
  have held : empty.kind? ⟨index⟩ = some (.scalar scalar) := by
    rw [kind?, ← Array.getElem?_toList, slots_empty, List.getElem?_map, listed]
    rfl
  exact (performAll_extends empty history).kept ⟨index⟩ (.scalar scalar) (by simp) held

/-! ## Defining -/

theorem perform_define_of_free (free : store.kind? id = some .placeholder) (kind : Kind) :
    store.perform (.define id kind) =
      (.ok none, ⟨store.slots.setIfInBounds id.index kind, store.interned⟩) := by
  simp only [perform, define, free]
  rfl

/-- A slot is defined exactly when it was reserved and not defined before. -/
theorem perform_define_ok_iff :
    (store.perform (.define id kind)).1 = .ok none ↔ store.kind? id = some .placeholder := by
  constructor
  · intro done
    simp only [perform, define] at done
    cases held : store.kind? id with
    | none => simp [held, Except.map] at done
    | some current =>
      cases current with
      | placeholder => rfl
      | _ => simp [held, Except.map] at done
  · intro free
    rw [perform_define_of_free free]

/-- Defining a slot changes that slot and nothing else. -/
theorem perform_define_frame (free : store.kind? id = some .placeholder) (kind : Kind) :
    let defined := (store.perform (.define id kind)).2
    defined.kind? id = some kind ∧ (∀ other ≠ id, defined.kind? other = store.kind? other) ∧
      defined.size = store.size ∧ defined.interned = store.interned := by
  have inside : id.index < store.slots.size := lt_size free
  rw [perform_define_of_free free]
  refine ⟨?_, ?_, by simp [size], rfl⟩
  · simp [kind?, inside]
  · intro other different
    have apart : id.index ≠ other.index := fun same => different (by cases id; cases other; simp_all)
    simp [kind?, Array.getElem?_setIfInBounds_ne apart]

/-! ## Refused operations -/

/-- What a store refuses, and why: to define what has no slot, to define a slot twice, and an
enumeration over a scalar that is not integral. -/
inductive Refuses (store : Store) : Action → StoreError → Prop where
  | unknown {id : TypeId} {kind : Kind} (missing : store.kind? id = none) :
      Refuses store (.define id kind) (.unknownType id)
  | defined {id : TypeId} {kind current : Kind} (held : store.kind? id = some current)
      (solid : current ≠ .placeholder) : Refuses store (.define id kind) (.alreadyDefined id)
  | underlying {name : String} {underlying : Scalar} (unfit : underlying.isIntegral = false) :
      Refuses store (.enumeration name underlying) (.invalidUnderlying name underlying)

theorem perform_error_iff :
    (store.perform action).1 = .error cause ↔ Refuses store action cause := by
  constructor
  · intro refused
    cases action with
    | define id kind =>
      simp only [perform, define] at refused
      cases held : store.kind? id with
      | none =>
        simp only [held] at refused
        cases refused
        exact .unknown held
      | some current =>
        cases current with
        | placeholder => simp [held, Except.map] at refused
        | _ =>
          simp only [held] at refused
          cases refused
          exact .defined held (by simp)
    | enumeration name underlying =>
      simp only [perform, enumeration] at refused
      cases unfit : underlying.isIntegral with
      | true => simp [unfit, Except.map] at refused
      | false =>
        simp only [unfit] at refused
        cases refused
        exact .underlying unfit
    | _ => simp [perform, perform.give] at refused
  · intro refuses
    cases refuses with
    | unknown missing => simp [perform, define, missing, Except.map]
    | @defined id kind current held solid =>
      cases current with
      | placeholder => exact absurd rfl solid
      | _ => simp [perform, define, held, Except.map]
    | underlying unfit => simp [perform, enumeration, unfit, Except.map]

theorem perform_of_error (refused : (store.perform action).1 = .error cause) :
    store.perform action = (.error cause, store) := by
  have change := perform_change store action
  rw [refused] at change
  refine Prod.ext refused ?_
  generalize (store.perform action).2 = after at change
  cases change
  rfl

theorem performAll_append (store : Store) (earlier later : List Action) :
    store.performAll (earlier ++ later) =
      ((store.performAll earlier).1 ++ ((store.performAll earlier).2.performAll later).1,
        ((store.performAll earlier).2.performAll later).2) := by
  induction earlier generalizing store with
  | nil => rfl
  | cons action rest ih =>
    rw [List.cons_append, performAll_cons, ih, performAll_cons]
    rfl

/-- In a store with any history, the next operation takes away no slot and keeps every kind that
stands in one; the scalars stand in the first slots in their order, each under its id. Defining
succeeds exactly on a reserved slot, and changes it and nothing else. An operation fails exactly for
the reasons listed; then the store stays as it was, and whatever is done next has the same answers
and the same outcome as without the operation. -/
theorem perform_keeps_defined (history : List Action) (action : Action) :
    let store := (empty.performAll history).2
    let answer := (store.perform action).1
    let after := (store.perform action).2
    store.size ≤ after.size ∧
      (∀ id kind, kind ≠ .placeholder → store.kind? id = some kind → after.kind? id = some kind) ∧
      (∀ index < 19, ∃ scalar, Scalar.all[index]? = some scalar ∧
        store.kind? ⟨index⟩ = some (.scalar scalar)) ∧
      (∀ scalar, store.kind? (Store.scalar scalar) = some (.scalar scalar)) ∧
      (∀ id kind, action = .define id kind →
        (answer = .ok none ↔ store.kind? id = some .placeholder) ∧
          (answer = .ok none → after.kind? id = some kind ∧
            (∀ other ≠ id, after.kind? other = store.kind? other) ∧
            after.size = store.size ∧ after.interned = store.interned)) ∧
      (∀ cause, answer = .error cause ↔ Refuses store action cause) ∧
      ∀ cause, answer = .error cause → after = store ∧
        ∀ further, ∃ later last,
          empty.performAll (history ++ further) =
            ((empty.performAll history).1 ++ later, last) ∧
          empty.performAll (history ++ action :: further) =
            ((empty.performAll history).1 ++ .error cause :: later, last) := by
  intro store answer after
  have extended : Extends store after := (perform_change store action).extends
  refine ⟨extended.grown, extended.kept, ?_, ?_, ?_, fun cause => perform_error_iff, ?_⟩
  · intro index inside
    have listed : Scalar.all[index]? = some Scalar.all[index] := List.getElem?_eq_getElem inside
    exact ⟨_, listed, kind?_performAll_scalar listed history⟩
  · intro scalar
    exact kind?_performAll_scalar scalar.all_get_index history
  · rintro id kind rfl
    exact ⟨perform_define_ok_iff, fun done => perform_define_frame (perform_define_ok_iff.mp done) kind⟩
  · intro cause refused
    have unchanged : store.perform action = (.error cause, store) := perform_of_error refused
    refine ⟨congrArg Prod.snd unchanged, ?_⟩
    intro further
    refine ⟨_, _, performAll_append empty history further, ?_⟩
    rw [performAll_append, performAll_cons, show (empty.performAll history).2.perform action = _ from
      unchanged]

end QueryAudit.Store
