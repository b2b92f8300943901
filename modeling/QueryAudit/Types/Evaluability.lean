import QueryAudit.Types.Store

/-! Whether a type is plain data that a remote provider can carry: a finite tree of anonymous
records and arrays over enumerations and transportable scalars, no deeper than a limit.

Answers are remembered. A type found to be plain data is remembered with its height, the
deepest nesting below it, so that meeting it again deeper inside another type still honours the
limit. A refusal is remembered only if it cannot be an effect of the limit.

Questions are put in a monad that is told of the work they take; where nobody watches, they are
plain functions. -/
namespace QueryAudit.Evaluability

/-- What earlier questions settled, and where the present one is. -/
structure Memo where
  /-- The height of a type, or `none` for a type that is not plain data under any limit. -/
  heights : Std.HashMap TypeId (Option Nat) := ∅
  /-- The types that are being unfolded, the innermost one first. -/
  inProgress : List TypeId := []
  /-- Whether the limit cut off any part of the question being answered. -/
  truncated : Bool := false

namespace Memo

def cut (memo : Memo) : Memo :=
  { memo with truncated := true }

def enter (memo : Memo) (type : TypeId) : Memo :=
  { memo with inProgress := type :: memo.inProgress }

def leave (memo : Memo) (type : TypeId) : Memo :=
  { memo with inProgress := memo.inProgress.erase type }

/-- Remembers a result, unless it is a refusal that the limit may have caused. -/
def record (memo : Memo) (type : TypeId) (height : Option Nat) : Memo :=
  if height.isSome || !memo.truncated then
    { memo with heights := memo.heights.insert type height }
  else memo

end Memo

/-- One call that measures a type. -/
structure Visit where
  /-- The number of calls that it is made in. -/
  depth : Nat
  type : TypeId
  /-- The height that was remembered, if the type was looked up and found to be plain data. -/
  known : Option Nat := none
  answer : Option Nat := none
  deriving DecidableEq

/-- A monad that is told of every call that measures a type, and of the type at which a round of an
explanation starts. -/
class Watched (m : Type → Type) extends Monad m where
  visited : Visit → m Unit
  started : TypeId → m Unit

/-- Nobody watches. -/
instance : Watched Id where
  visited _ := pure ()
  started _ := pure ()

section Questions

variable {m : Type → Type} [Watched m]

/-- Height of a record with the given members: the first refusal decides, otherwise one more
than the highest member. `height` is the highest so far. -/
def recordHeightM (measure : Memo → TypeId → m (Option Nat × Memo)) (memo : Memo) (height : Nat) :
    List Member → m (Option Nat × Memo)
  | [] => pure (some height, memo)
  | member :: rest => do
    match ← measure memo member.type with
    | (none, memo) => return (none, memo)
    | (some inner, memo) => recordHeightM measure memo (max height (inner + 1)) rest

/-- Height of a type by its kind. -/
def kindHeightM (measure : Memo → TypeId → m (Option Nat × Memo)) (memo : Memo) :
    Option Kind → m (Option Nat × Memo)
  | some (.enumeration ..) => pure (some 0, memo)
  | some (.scalar scalar) => pure (if scalar.isTransportable then some 0 else none, memo)
  | some (.anonymous members) => recordHeightM measure memo 0 members
  | some (.array element _) => do
    let (inner, memo) ← measure memo element
    return (inner.map (· + 1), memo)
  | some (.named ..) | some .placeholder | none => pure (none, memo)

/-- Height of a type of at most `levels` levels. A type that is met while it is being unfolded
stands for infinite data. -/
def measureM (store : Store) : (levels depth : Nat) → Memo → TypeId → m (Option Nat × Memo)
  | 0, depth, memo, type => do
    Watched.visited { depth, type }
    return (none, memo.cut)
  | levels + 1, depth, memo, type =>
    match memo.heights[type]? with
    | some (some height) => do
      let (answer, memo) := if levels < height then (none, memo.cut) else (some height, memo)
      Watched.visited ⟨depth, type, some height, answer⟩
      return (answer, memo)
    | some none => do
      Watched.visited { depth, type }
      return (none, memo)
    | none =>
      if type ∈ memo.inProgress then do
        Watched.visited { depth, type }
        return (none, memo)
      else do
        let (height, memo) ←
          kindHeightM (measureM store levels (depth + 1)) (memo.enter type) (store.kind? type)
        Watched.visited { depth, type, answer := height }
        return (height, (memo.leave type).record type height)

/-- One question put to the memo, with its answer. -/
structure Lookup where
  type : TypeId
  /-- Whether the answer was known before. -/
  known : Bool
  outcome : Bool
  deriving DecidableEq

/-- Whether a type is plain data no deeper than `limit`. -/
def evaluateM (store : Store) (limit : Nat) (memo : Memo) (type : TypeId) : m (Lookup × Memo) :=
  match memo.heights[type]? with
  | some height => pure (⟨type, true, height.any (· ≤ limit)⟩, memo)
  | none => do
    let (height, memo) ← measureM store (limit + 1) 0 { memo with truncated := false } type
    return (⟨type, false, height.isSome⟩, memo)

/-- The first member whose type is not plain data. -/
def firstRefusedM (store : Store) (limit : Nat) (memo : Memo) :
    List Member → m (Option TypeId × List Lookup × Memo)
  | [] => pure (none, [], memo)
  | member :: rest => do
    let (lookup, memo) ← evaluateM store limit memo member.type
    if lookup.outcome then
      let (found, lookups, memo) ← firstRefusedM store limit memo rest
      return (found, lookup :: lookups, memo)
    else return (some member.type, [lookup], memo)

/-- One step inwards from a refused type: to the first refused member of a record, or to the
element of an array. -/
def nextBlamedM (store : Store) (limit : Nat) (memo : Memo) (current : TypeId) :
    m (Option TypeId × List Lookup × Memo) :=
  match store.kind? current with
  | some (.anonymous members) => firstRefusedM store limit memo members
  | some (.array element _) => pure (some element, [], memo)
  | _ => pure (none, [], memo)

/-- Follows a refused type inwards, for at most `steps` steps and to no type twice. -/
def blameM (store : Store) (limit : Nat) : (steps : Nat) → (visited : List TypeId) → Memo →
    TypeId → m (TypeId × List Lookup × Memo)
  | 0, _, memo, current => do
    Watched.started current
    return (current, [], memo)
  | steps + 1, visited, memo, current => do
    Watched.started current
    if current ∈ visited then return (current, [], memo)
    else match ← nextBlamedM store limit memo current with
      | (none, asked, memo) => return (current, asked, memo)
      | (some next, asked, memo) =>
        let (found, lookups, memo) ← blameM store limit steps (current :: visited) memo next
        return (found, asked ++ lookups, memo)

/-- The inner type that makes a type unfit to be carried; `none` when the type is plain data. -/
def explainM (store : Store) (limit : Nat) (memo : Memo) (type : TypeId) :
    m (Option TypeId × List Lookup × Memo) := do
  let (lookup, memo) ← evaluateM store limit memo type
  if lookup.outcome then return (none, [lookup], memo)
  else
    let (found, lookups, memo) ← blameM store limit limit [] memo type
    return (some found, lookup :: lookups, memo)

end Questions

/-- `evaluateM` where nobody watches. -/
def evaluate (store : Store) (limit : Nat) (memo : Memo) (type : TypeId) : Lookup × Memo :=
  Id.run (evaluateM store limit memo type)

/-- `explainM` where nobody watches. -/
def explain (store : Store) (limit : Nat) (memo : Memo) (type : TypeId) :
    Option TypeId × List Lookup × Memo :=
  Id.run (explainM store limit memo type)

/-- A missing type is taken to be plain data, without a question. -/
def evaluate? (store : Store) (limit : Nat) (memo : Memo) :
    Option TypeId → Bool × List Lookup × Memo
  | none => (true, [], memo)
  | some type =>
    let (lookup, memo) := evaluate store limit memo type
    (lookup.outcome, [lookup], memo)

end QueryAudit.Evaluability
