import Mathlib.Data.Fintype.Basic
import Mathlib.Data.List.Forall2
import Mathlib.Tactic.FinCases
import QueryAudit.Proofs.QuestionHistories
import QueryAudit.Proofs.StoreHistories

/-! Answers depend on structure alone. The memory and the path of a question are kept by id, so two
graphs of the same structure are walked in quite different ways when one of them shares, repeats or
renumbers types, or folds a cycle that the other one unrolls. The height of a type does not see
this: it is the same for any two types that no number of steps inwards can tell apart. -/
namespace QueryAudit.Evaluability

variable {α β : Type} {store other : Store} {type left right : TypeId} {height limit : Nat}
  {related : TypeId → TypeId → Prop}

/-! ## Structure -/

/-- One level of a type without names, ranks and ids. -/
inductive Shape (α : Type) where
  /-- An enumeration or a transportable scalar. -/
  | carried
  /-- What is never plain data: any other scalar, a named type, a reserved slot, an id without a
  slot. -/
  | foreign
  | record (members : List α)
  | array (element : α)

/-- The shape of the type under an id. -/
def shape (store : Store) (type : TypeId) : Shape TypeId :=
  match store.kind? type with
  | some (.enumeration ..) => .carried
  | some (.scalar scalar) => if scalar.isTransportable then .carried else .foreign
  | some (.anonymous members) => .record (members.map Member.type)
  | some (.array element _) => .array element
  | some (.named ..) | some .placeholder | none => .foreign

namespace Shape

def map (f : α → β) : Shape α → Shape β
  | carried => carried
  | foreign => foreign
  | record members => record (members.map f)
  | array element => array (f element)

theorem map_id (own : Shape α) : own.map id = own := by
  cases own <;> simp [map]

def parts : Shape α → List α
  | record members => members
  | array element => [element]
  | carried | foreign => []

/-- Shapes of one kind whose parts are related, in order. -/
inductive Alike (related : α → β → Prop) : Shape α → Shape β → Prop where
  | carried : Alike related carried carried
  | foreign : Alike related foreign foreign
  | record {members : List α} {others : List β} (pairwise : List.Forall₂ related members others) :
      Alike related (record members) (record others)
  | array {element : α} {other : β} (pair : related element other) :
      Alike related (array element) (array other)

theorem Alike.flip {related : α → β → Prop} {own : Shape α} {other : Shape β}
    (alike : Alike related own other) : Alike (fun right left => related left right) other own := by
  cases alike with
  | carried => exact .carried
  | foreign => exact .foreign
  | record pairwise => exact .record pairwise.flip
  | array pair => exact .array pair

/-- The images of one shape under two maps are alike when the images of its parts are related. -/
theorem alike_map {γ : Type} {related : β → γ → Prop} {first : α → β} {second : α → γ}
    {own : Shape α} (pairs : ∀ part ∈ own.parts, related (first part) (second part)) :
    Alike related (own.map first) (own.map second) := by
  cases own with
  | carried => exact .carried
  | foreign => exact .foreign
  | array element => exact .array (pairs element (List.mem_singleton.mpr rfl))
  | record members =>
    apply Alike.record
    rw [List.forall₂_map_left_iff, List.forall₂_map_right_iff, List.forall₂_same]
    exact pairs

end Shape

/-- Related types cannot be told apart: they are alike, and so are their parts, and so on. -/
def Matches (store other : Store) (related : TypeId → TypeId → Prop) : Prop :=
  ∀ left right, related left right → (shape store left).Alike related (shape other right)

/-- Related types cannot be told apart from the left, where nothing is asked of what is never plain
data. -/
def Simulates (store other : Store) (related : TypeId → TypeId → Prop) : Prop :=
  ∀ left right, related left right →
    shape store left = .foreign ∨ (shape store left).Alike related (shape other right)

theorem Simulates.twin (simulates : Simulates store other related) (pair : related left right)
    {own : Shape TypeId} (level : shape store left = own) (solid : own ≠ .foreign) :
    ∃ found, shape other right = found ∧ own.Alike related found := by
  subst level
  exact ⟨_, rfl, (simulates left right pair).resolve_left solid⟩

theorem Matches.simulates (alike : Matches store other related) : Simulates store other related :=
  fun left right pair => .inr (alike left right pair)

theorem Matches.flip (alike : Matches store other related) :
    Matches other store fun right left => related left right :=
  fun right left pair => (alike left right pair).flip

/-! ## Heights -/

theorem HasHeight.of_carried (level : shape store type = .carried) : HasHeight store type 0 := by
  unfold shape at level
  split at level
  · next held => exact .enumeration held
  · next held =>
    split at level
    · next transportable => exact .scalar held transportable
    · cases level
  all_goals cases level

theorem kind?_of_record {members : List TypeId} (level : shape store type = .record members) :
    ∃ own, store.kind? type = some (.anonymous own) ∧ own.map Member.type = members := by
  unfold shape at level
  split at level
  · cases level
  · split at level <;> cases level
  · next own held =>
    cases level
    exact ⟨own, held, rfl⟩
  all_goals cases level

theorem kind?_of_array {element : TypeId} (level : shape store type = .array element) :
    ∃ rank, store.kind? type = some (.array element rank) := by
  unfold shape at level
  split at level
  · cases level
  · split at level <;> cases level
  · cases level
  · next rank held =>
    cases level
    exact ⟨rank, held⟩
  all_goals cases level

theorem tallest_pairwise {heights others : TypeId → Nat} {members twins : List Member}
    (same : List.Forall₂ (fun member twin => heights member.type = others twin.type) members twins) :
    tallest heights members = tallest others twins := by
  induction same with
  | nil => rfl
  | cons first _ ih =>
    simp only [tallest, List.foldr_cons] at ih ⊢
    rw [first, ih]

/-- Heights are determined, so one function gives all that there are. -/
theorem exists_heightOf (store : Store) :
    ∃ heights : TypeId → Nat, ∀ type height, HasHeight store type height → heights type = height := by
  classical
  refine ⟨fun type => if known : ∃ height, HasHeight store type height then known.choose else 0, ?_⟩
  intro type height high
  have known : ∃ height, HasHeight store type height := ⟨height, high⟩
  simp only [known, ↓reduceDIte]
  exact known.choose_spec.unique high

/-- A record is as high as the heights of its members say, wherever these are taken from. -/
theorem HasHeight.record_pairwise {heights : TypeId → Nat} {members twins : List Member}
    (held : store.kind? type = some (.anonymous twins))
    (below : List.Forall₂ (fun member twin => HasHeight store twin.type (heights member.type))
      members twins) : HasHeight store type (tallest heights members) := by
  obtain ⟨others, exact⟩ := exists_heightOf store
  have same : tallest heights members = tallest others twins :=
    tallest_pairwise (below.imp fun member twin high => (exact _ _ high).symm)
  have high : ∀ twin ∈ twins, HasHeight store twin.type (others twin.type) := by
    have both : List.Forall₂ (fun twin member => HasHeight store twin.type (others twin.type) ∧
        HasHeight store twin.type (heights member.type)) twins members :=
      below.flip.imp fun twin member high => ⟨(exact _ _ high).symm ▸ high, high⟩
    exact ((List.forall₂_and_left _ _).mp both).1
  rw [same]
  exact .record held high

/-- A type that cannot be told from one with a height has that height. -/
theorem HasHeight.simulated (simulates : Simulates store other related)
    (high : HasHeight store left height) (pair : related left right) :
    HasHeight other right height := by
  induction high generalizing right with
  | @enumeration left name underlying held =>
    have level : shape store left = .carried := by simp only [shape, held]
    obtain ⟨_, found, ⟨⟩⟩ := simulates.twin pair level nofun
    exact .of_carried found
  | @scalar left scalar held transportable =>
    have level : shape store left = .carried := by simp only [shape, held, transportable, ↓reduceIte]
    obtain ⟨_, found, ⟨⟩⟩ := simulates.twin pair level nofun
    exact .of_carried found
  | @record left members heights held below ih =>
    have level : shape store left = .record (members.map Member.type) := by simp only [shape, held]
    obtain ⟨_, found, twin⟩ := simulates.twin pair level nofun
    cases twin with
    | record pairwise =>
      obtain ⟨twins, heldThere, rfl⟩ := kind?_of_record found
      rw [List.forall₂_map_left_iff, List.forall₂_map_right_iff] at pairwise
      have high : List.Forall₂
          (fun member twin => HasHeight other twin.type (heights member.type)) members twins :=
        ((List.forall₂_and_left _ _).mpr ⟨@ih, pairwise⟩).imp fun member twin both => both.1 both.2
      exact .record_pairwise heldThere high
  | @array left element rank height held below ih =>
    have level : shape store left = .array element := by simp only [shape, held]
    obtain ⟨_, found, twin⟩ := simulates.twin pair level nofun
    cases twin with
    | array pairThere =>
      obtain ⟨rank, heldThere⟩ := kind?_of_array found
      exact .array heldThere (ih pairThere)

/-- Types that cannot be told apart have the same heights. -/
theorem Matches.hasHeight_iff (alike : Matches store other related) (pair : related left right) :
    HasHeight store left height ↔ HasHeight other right height :=
  ⟨fun high => high.simulated alike.simulates pair,
    fun high => high.simulated alike.flip.simulates pair⟩

/-! ## Sharing -/

theorem part_of_mem_parts (listed : type ∈ (shape store left).parts) : Part store left type := by
  unfold shape at listed
  split at listed
  · cases listed
  · split at listed <;> cases listed
  · next held =>
    obtain ⟨member, isMember, rfl⟩ := List.mem_map.mp listed
    exact .member held isMember
  · next held =>
    cases List.mem_singleton.mp listed
    exact .element held
  all_goals cases listed

/-- The shape of a type depends on its kind alone. -/
theorem alike_of_kind? (same : store.kind? left = other.kind? right)
    (pairs : ∀ inner, Part store left inner → related inner inner) :
    (shape store left).Alike related (shape other right) := by
  have level : shape store left = shape other right := by simp only [shape, same]
  have alike : ((shape store left).map id).Alike related ((shape store left).map id) :=
    Shape.alike_map fun inner listed => pairs inner (part_of_mem_parts listed)
  simpa only [Shape.map_id, ← level] using alike

/-- Slots of one store that hold the same kind cannot be told apart. -/
theorem matches_same_kind (store : Store) :
    Matches store store fun left right => store.kind? left = store.kind? right :=
  fun _ _ same => alike_of_kind? same fun _ _ => rfl

section

variable (store) (kind : Kind) (interned : Std.HashMap Kind TypeId)

/-- More slots take no height away. -/
theorem simulates_push : Simulates store ⟨store.slots.push kind, interned⟩ Eq := by
  rintro type _ rfl
  cases held : store.kind? type with
  | none => exact .inl (by simp only [shape, held])
  | some own =>
    have kept := Store.kind?_push interned held kind
    exact .inr (alike_of_kind? (held.trans kept.symm) fun _ _ => rfl)

/-- A new slot gives no height to types that do not reach it. -/
theorem simulates_unpushed :
    let grown : Store := ⟨store.slots.push kind, interned⟩
    Simulates grown store fun left right => left = right ∧ ¬ Reaches grown left ⟨store.size⟩ := by
  rintro grown type _ ⟨rfl, apart⟩
  have different : type.index ≠ store.slots.size := by
    intro same
    apply apart
    rw [show type = ⟨store.size⟩ from congrArg TypeId.mk same]
  have same : grown.kind? type = store.kind? type := by
    simp only [Store.kind?, grown, Array.getElem?_push, different, ↓reduceIte]
  exact .inr (alike_of_kind? same fun inner part => ⟨rfl, fun reaches => apart (.head part reaches)⟩)

end

/-- A part of a type is a part of every type of the same kind. -/
theorem Part.of_same_kind (same : store.kind? left = store.kind? right)
    (part : Part store left type) : Part store right type := by
  cases part with
  | member held listed => exact .member (same ▸ held) listed
  | element held => exact .element (same ▸ held)

/-- A type with a height does not reach another one of its kind: from there it would go on as
before. -/
theorem HasHeight.not_reaches_same_kind (high : HasHeight store left height)
    (same : store.kind? left = store.kind? right) (different : left ≠ right) :
    ¬ Reaches store left right := by
  intro reaches
  have highThere := ((matches_same_kind store).hasHeight_iff same).mp high
  rcases Relation.reflTransGen_iff_eq_or_transGen.mp reaches with rfl | contains
  · exact different rfl
  · obtain ⟨inner, part, rest⟩ := Relation.TransGen.head'_iff.mp contains
    exact highThere.acyclic (Relation.TransGen.head'_iff.mpr ⟨inner, part.of_same_kind same, rest⟩)

/-- A kind has the same height in a slot of its own as where it is interned. -/
theorem hasHeight_intern_iff {kind : Kind} (indexed : Store.Indexed store)
    (solid : kind ≠ .placeholder) :
    HasHeight (store.intern kind).2 (store.intern kind).1 height ↔
      HasHeight ⟨store.slots.push kind, store.interned⟩ ⟨store.size⟩ height := by
  let filled : Store := ⟨store.slots.push kind, store.interned⟩
  have last : filled.kind? ⟨store.size⟩ = some kind := Store.kind?_pushed store.slots _ kind
  cases known : store.interned[kind]? with
  | some id =>
    rw [Store.intern_of_known solid known]
    have held := (indexed kind id known).2
    have same : filled.kind? id = filled.kind? ⟨store.size⟩ :=
      (Store.kind?_push _ held kind).trans last.symm
    have twin : HasHeight filled id height ↔ HasHeight filled ⟨store.size⟩ height :=
      (matches_same_kind filled).hasHeight_iff same
    constructor
    · intro high
      exact twin.mp (high.simulated (simulates_push store kind _) rfl)
    · intro high
      have different : id ≠ ⟨store.size⟩ := by
        rintro rfl
        exact Nat.lt_irrefl _ (Store.lt_size held)
      have apart := (twin.mpr high).not_reaches_same_kind same different
      exact (twin.mpr high).simulated (simulates_unpushed store kind _) ⟨rfl, apart⟩
  | none =>
    rw [Store.intern_of_unknown solid known]
    have alike : Matches ⟨store.slots.push kind, store.interned.insert kind ⟨store.size⟩⟩ filled Eq :=
      fun _ _ same => alike_of_kind? (by cases same; rfl) fun _ _ => rfl
    exact alike.hasHeight_iff rfl

/-- A slot is given a kind of its own by reserving it and defining it. -/
theorem define_reserved (store : Store) (kind : Kind) :
    store.reserve.2.define store.reserve.1 kind =
      (.ok (), ⟨store.slots.push kind, store.interned⟩) := by
  have held : store.reserve.2.kind? store.reserve.1 = some .placeholder :=
    Store.kind?_pushed store.slots _ _
  have filled : (store.slots.push .placeholder).setIfInBounds store.slots.size kind =
      store.slots.push kind := by
    apply Array.ext'
    simp
  rw [Store.define, held]
  simp [Store.reserve, Store.push, Store.size, filled]

/-! ## Answers -/

/-- The answer about a type after a history of questions. -/
def isPlain (store : Store) (limit : Nat) (history : List Question) (type : TypeId) : Bool :=
  (evaluate store limit (remembered store limit history) type).1.outcome

/-- Types with the same heights get the same answer, whatever was asked before. -/
theorem isPlain_congr (same : ∀ height, HasHeight store left height ↔ HasHeight other right height)
    (limit : Nat) (history otherHistory : List Question) :
    isPlain store limit history left = isPlain other limit otherHistory right := by
  rw [Bool.eq_iff_iff, isPlain, isPlain,
    (evaluate_answered (remembered_sound store limit history) left).1,
    (evaluate_answered (remembered_sound other limit otherHistory) right).1]
  exact exists_congr fun height => and_congr Iff.rfl (same height)

/-- A graph of shapes lies in a store, its nodes under any ids, equal or not. -/
def Lays (store : Store) (graph : α → Shape α) (place : α → TypeId) : Prop :=
  ∀ node, shape store (place node) = (graph node).map place

theorem Lays.matches {graph : α → Shape α} {place otherPlace : α → TypeId}
    (lays : Lays store graph place) (laysThere : Lays other graph otherPlace) :
    Matches store other fun left right => ∃ node, left = place node ∧ right = otherPlace node := by
  rintro left right ⟨node, rfl, rfl⟩
  rw [lays node, laysThere node]
  exact Shape.alike_map fun part _ => ⟨part, rfl, rfl⟩

/-- Types that cannot be told apart by going inwards get the same answer, in any two stores, under
any limit and after any questions. So it makes no difference how the types of a graph are numbered
and named and which of them are shared, nor whether a kind is interned or gets a slot of its own. -/
theorem isPlain_structural (limit : Nat) (history otherHistory : List Question) :
    (∀ (store other : Store) (related : TypeId → TypeId → Prop), Matches store other related →
      ∀ left right, related left right →
        isPlain store limit history left = isPlain other limit otherHistory right) ∧
      (∀ (store other : Store) (α : Type) (graph : α → Shape α) (place otherPlace : α → TypeId),
        Lays store graph place → Lays other graph otherPlace → ∀ node,
          isPlain store limit history (place node) =
            isPlain other limit otherHistory (otherPlace node)) ∧
      ∀ (operations : List Store.Action) (kind : Kind) (filled : Store), kind ≠ .placeholder →
        let store := (Store.empty.performAll operations).2
        store.reserve.2.define store.reserve.1 kind = (.ok (), filled) →
          isPlain (store.intern kind).2 limit history (store.intern kind).1 =
            isPlain filled limit otherHistory store.reserve.1 := by
  refine ⟨?_, ?_, ?_⟩
  · intro store other related alike left right pair
    exact isPlain_congr (fun height => alike.hasHeight_iff pair) limit history otherHistory
  · intro store other α graph place otherPlace lays laysThere node
    have alike := lays.matches laysThere
    exact isPlain_congr (fun height => alike.hasHeight_iff ⟨node, rfl, rfl⟩) limit history
      otherHistory
  · intro operations kind filled solid store defined
    have indexed : Store.Indexed store := Store.performAll_indexed Store.empty_indexed operations
    cases (define_reserved store kind).symm.trans defined
    exact isPlain_congr (fun height => hasHeight_intern_iff indexed solid) limit history otherHistory

/-- Pairs of arrays, and lists, which contain themselves after one turn. -/
def drawing : Fin 9 → Shape (Fin 9)
  | 0 | 1 => .carried
  | 2 => .array 0
  | 3 => .array 1
  | 4 => .record [3, 2]
  | 5 => .record [8]
  | 6 => .array 5
  | 7 => .record [6]
  | 8 => .array 7

/-- The operations that make a pair of one array with itself and a list that contains itself. -/
def folding : List Store.Action :=
  [.array ⟨7⟩, .anonymous [⟨"Before", ⟨19⟩⟩, ⟨"After", ⟨19⟩⟩], .reserve, .array ⟨21⟩,
    .define ⟨21⟩ (.anonymous [⟨"Next", ⟨22⟩⟩])]

def folded : Store :=
  (Store.empty.performAll folding).2

/-- A pair of two arrays and an unrolled list, under other ids and names. -/
def unrolled : Store :=
  (Store.empty.performAll [.reserve, .reserve, .reserve, .define ⟨21⟩ (.array ⟨7⟩ 2),
    .define ⟨20⟩ (.array ⟨13⟩ 1), .anonymous [⟨"Low", ⟨20⟩⟩, ⟨"High", ⟨21⟩⟩], .array ⟨19⟩,
    .anonymous [⟨"Tail", ⟨23⟩⟩], .array ⟨24⟩, .define ⟨19⟩ (.anonymous [⟨"Rest", ⟨25⟩⟩])]).2

def foldedPlace (node : Fin 9) : TypeId :=
  ⟨[7, 7, 19, 19, 20, 21, 22, 21, 22].get node⟩

def unrolledPlace (node : Fin 9) : TypeId :=
  ⟨[7, 13, 21, 20, 22, 19, 23, 24, 25].get node⟩

theorem lays_folded : Lays folded drawing foldedPlace := by
  intro node
  fin_cases node <;> cbv

theorem lays_unrolled : Lays unrolled drawing unrolledPlace := by
  intro node
  fin_cases node <;> cbv

/-- The drawing lies in both stores, so its pairs and its lists get the same answers there; and an
array that is interned gets the answer of one in a slot of its own. -/
theorem isPlain_structural_unrolled :
    let related left right := ∃ node, left = foldedPlace node ∧ right = unrolledPlace node
    Matches folded unrolled related ∧ related ⟨20⟩ ⟨22⟩ ∧ related ⟨21⟩ ⟨19⟩ ∧
      (∀ limit history otherHistory,
        isPlain folded limit history ⟨20⟩ = isPlain unrolled limit otherHistory ⟨22⟩ ∧
          isPlain folded limit history ⟨21⟩ = isPlain unrolled limit otherHistory ⟨19⟩ ∧
          isPlain (folded.intern (.array ⟨7⟩ 1)).2 limit history (folded.intern (.array ⟨7⟩ 1)).1 =
            isPlain ⟨folded.slots.push (.array ⟨7⟩ 1), folded.interned⟩ limit otherHistory
              folded.reserve.1) := by
  intro related
  have alike : Matches folded unrolled related := lays_folded.matches lays_unrolled
  have pairs : related ⟨20⟩ ⟨22⟩ := ⟨4, rfl, rfl⟩
  have lists : related ⟨21⟩ ⟨19⟩ := ⟨5, rfl, rfl⟩
  refine ⟨alike, pairs, lists, ?_⟩
  intro limit history otherHistory
  obtain ⟨byPairs, byGraph, byInterning⟩ := isPlain_structural limit history otherHistory
  exact ⟨byPairs folded unrolled related alike _ _ pairs,
    byGraph folded unrolled _ drawing foldedPlace unrolledPlace lays_folded lays_unrolled 5,
    byInterning folding (.array ⟨7⟩ 1) _ nofun (define_reserved folded _)⟩

end QueryAudit.Evaluability
