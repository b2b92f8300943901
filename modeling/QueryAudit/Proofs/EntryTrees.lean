import Mathlib.Data.List.Forall2
import QueryAudit.Proofs.ConfinedLoads
import QueryAudit.Proofs.TreeInduction

/-! Trees as a dump describes them, and the trees that they are loaded as. An entry denotes
an expression of the same shape, with the same names, symbol and type, when what is directly inside
the entry denotes what is directly inside the expression. An entry denotes what it is loaded as, so
the calls of a loaded tree and the types in it can be read off the entries. -/
namespace QueryAudit

namespace ExprEntry

/-- What holds of an entry whenever it holds of its parts holds of every entry. -/
@[induction_eliminator]
theorem induction {motive : ExprEntry → Prop}
    (anonymous : ∀ note members, (∀ slot ∈ members, motive slot.value) →
      motive (.anonymous note members))
    (call : ∀ note callee arguments resolved, motive callee →
      (∀ slot ∈ arguments, motive slot.value) → motive (.call note callee arguments resolved))
    (cast : ∀ note typeName value, motive value → motive (.cast note typeName value))
    (identifier : ∀ note name, motive (.identifier note name))
    (lambda : ∀ note parameters body, motive body → motive (.lambda note parameters body))
    (literal : ∀ note value, motive (.literal note value))
    (member : ∀ note left name, motive left → motive (.member note left name))
    (paren : ∀ note value, motive value → motive (.paren note value))
    (other : ∀ note text children, (∀ child ∈ children, motive child) →
      motive (.other note text children)) (entry : ExprEntry) : motive entry :=
  @ExprEntry.rec motive (fun slots => ∀ slot ∈ slots, motive slot.value)
    (fun children => ∀ child ∈ children, motive child) (fun slot => motive slot.value)
    anonymous call cast identifier lambda literal member paren other
    (fun _ none => absurd none List.not_mem_nil)
    (fun _ _ first rest => List.forall_mem_cons.mpr ⟨first, rest⟩)
    (fun _ none => absurd none List.not_mem_nil)
    (fun _ _ first rest => List.forall_mem_cons.mpr ⟨first, rest⟩)
    (fun _ _ held => held) entry

/-- The annotations of an entry. -/
def note : ExprEntry → Note
  | anonymous note _ | call note _ _ _ | cast note _ _ | identifier note _ | lambda note _ _
  | literal note _ | member note _ _ | paren note _ | other note _ _ => note

/-- The entries directly inside an entry. -/
def immediate : ExprEntry → List ExprEntry
  | anonymous _ members => members.map SlotEntry.value
  | call _ callee arguments _ => callee :: arguments.map SlotEntry.value
  | cast _ _ value => [value]
  | lambda _ _ body => [body]
  | member _ left _ => [left]
  | paren _ value => [value]
  | other _ _ children => children
  | identifier .. | literal .. => []

/-- An entry stands somewhere in a tree. -/
inductive Inside (entry : ExprEntry) : ExprEntry → Prop where
  | here : Inside entry entry
  | deeper {outer part : ExprEntry} (listed : part ∈ outer.immediate) (inside : Inside entry part) :
      Inside entry outer

/-- An entry inside any number of parentheses and casts. -/
inductive Wraps : ExprEntry → ExprEntry → Prop where
  | bare {entry : ExprEntry} : Wraps entry entry
  | paren {note : Note} {value entry : ExprEntry} (inside : Wraps value entry) :
      Wraps (.paren note value) entry
  | cast {note : Note} {typeName : String} {value entry : ExprEntry} (inside : Wraps value entry) :
      Wraps (.cast note typeName value) entry

/-! ## What an entry denotes -/

/-- An entry and an expression of one shape, with the same names and the same symbol. -/
inductive Alike : ExprEntry → Expr → Prop where
  | anonymous {note : Note} {members : List (SlotEntry ExprEntry)} {marks : Marks}
      {slots : List (Slot Expr)} : Alike (.anonymous note members) (.anonymous marks slots)
  | call {note : Note} {callee : ExprEntry} {arguments : List (SlotEntry ExprEntry)}
      {resolved : Option Symbol} {marks : Marks} {called : Expr} {slots : List (Slot Expr)}
      (bound : marks.inner.facts.symbol = resolved) :
      Alike (.call note callee arguments resolved) (.call marks called slots)
  | cast {note : Note} {typeName : String} {value : ExprEntry} {marks : Marks} {inner : Expr} :
      Alike (.cast note typeName value) (.cast marks typeName inner)
  | identifier {note : Note} {name : String} {marks : Marks} :
      Alike (.identifier note name) (.identifier marks name)
  | lambda {note : Note} {parameters : List String} {body : ExprEntry} {marks : Marks}
      {inner : Expr} : Alike (.lambda note parameters body) (.lambda marks parameters inner)
  | literal {note : Note} {value : Json} {marks : Marks} {own : Literal} :
      Alike (.literal note value) (.literal marks own)
  | member {note : Note} {left : ExprEntry} {name : String} {marks : Marks} {inner : Expr} :
      Alike (.member note left name) (.member marks inner name)
  | paren {note : Note} {value : ExprEntry} {marks : Marks} {inner : Expr} :
      Alike (.paren note value) (.paren marks inner)
  | other {note : Note} {text : String} {children : List ExprEntry} {marks : Marks}
      {parts : List Expr} : Alike (.other note text children) (.other marks text parts)

/-- An entry denotes an expression, wherever that is placed; types are numbered as in the dump. -/
inductive Denotes : ExprEntry → Expr → Prop where
  | intro {entry : ExprEntry} {expr : Expr} (alike : Alike entry expr)
      (typed : expr.marks.outer.facts.convertedType = entry.note.convertedType.map TypeId.mk)
      (inside : List.Forall₂ Denotes entry.immediate expr.immediate) : Denotes entry expr

end ExprEntry

/-! ## Loading -/

theorem bind_ok {α β ε : Type} {outcome : Except ε α} {next : α → Except ε β} {result : β}
    (done : (outcome >>= next) = .ok result) :
    ∃ value, outcome = .ok value ∧ next value = .ok result := by
  cases outcome with
  | error cause => cases done
  | ok value => exact ⟨value, rfl, done⟩

theorem TypeId.following_zero (count : Nat) : following 0 count = first count :=
  map_ids fun id _ => congrArg TypeId.mk (Nat.zero_add id.index)

theorem Note.loadFacts_ok {note : Note} {base count : Nat} {facts : Facts}
    (loaded : note.loadFacts (TypeId.following base count) = .ok facts) :
    facts = { convertedType := note.convertedType.map fun index => ⟨base + index⟩ } := by
  obtain ⟨place, type⟩ := note
  cases type with
  | none =>
    cases loaded
    rfl
  | some index =>
    obtain ⟨id, found, made⟩ := bind_ok loaded
    rw [typeIdAt_ok_iff] at found
    cases made
    rw [found.2]
    rfl

theorem Note.convertedType_of_loadFacts {note : Note} {count : Nat} {facts : Facts}
    (loaded : note.loadFacts (TypeId.first count) = .ok facts) :
    facts.convertedType = note.convertedType.map TypeId.mk := by
  rw [← TypeId.following_zero] at loaded
  rw [loadFacts_ok loaded]
  simp only [Nat.zero_add]

namespace ExprEntry

variable {count : Nat} {ids : Array TypeId}

/-- A slot keeps its name, and stands at the place of its value. -/
theorem loadSlots_ok {entries : List (SlotEntry ExprEntry)} {slots : List (Slot Expr)}
    (loaded : loadSlots ids entries = .ok slots) :
    List.Forall₂ (fun entry slot => entry.value.load ids = .ok slot.value ∧
      slot = ⟨⟨slot.value.loc, {}⟩, entry.name, slot.value⟩) entries slots := by
  induction entries generalizing slots with
  | nil =>
    cases loaded
    exact .nil
  | cons entry rest ih =>
    obtain ⟨value, first, loaded⟩ := bind_ok loaded
    obtain ⟨others, later, made⟩ := bind_ok loaded
    cases made
    exact .cons ⟨first, rfl⟩ (ih later)

theorem loadChildren_ok {entries : List ExprEntry} {children : List Expr}
    (loaded : loadChildren ids entries = .ok children) :
    List.Forall₂ (fun entry child => entry.load ids = .ok child) entries children := by
  induction entries generalizing children with
  | nil =>
    cases loaded
    exact .nil
  | cons entry rest ih =>
    obtain ⟨child, first, loaded⟩ := bind_ok loaded
    obtain ⟨others, later, made⟩ := bind_ok loaded
    cases made
    exact .cons first (ih later)

theorem slots_denote {entries : List (SlotEntry ExprEntry)} {slots : List (Slot Expr)}
    (loaded : loadSlots ids entries = .ok slots)
    (each : ∀ entry ∈ entries, ∀ expr, entry.value.load ids = .ok expr → Denotes entry.value expr) :
    List.Forall₂ Denotes (entries.map SlotEntry.value) (slots.map Slot.value) := by
  rw [List.forall₂_map_left_iff, List.forall₂_map_right_iff]
  have both := (List.forall₂_and_left _ _).mpr ⟨each, loadSlots_ok loaded⟩
  exact both.imp fun _ slot ⟨denotes, valueLoaded, _⟩ => denotes slot.value valueLoaded

theorem children_denote {entries : List ExprEntry} {children : List Expr}
    (loaded : loadChildren ids entries = .ok children)
    (each : ∀ entry ∈ entries, ∀ expr, entry.load ids = .ok expr → Denotes entry expr) :
    List.Forall₂ Denotes entries children := by
  have both := (List.forall₂_and_left _ _).mpr ⟨each, loadChildren_ok loaded⟩
  exact both.imp fun _ child ⟨denotes, childLoaded⟩ => denotes child childLoaded

/-- An entry denotes what it is loaded as. -/
theorem load_denotes (entry : ExprEntry) (expr : Expr)
    (loaded : entry.load (TypeId.first count) = .ok expr) : Denotes entry expr := by
  induction entry generalizing expr with
  | anonymous note members each =>
    obtain ⟨loc, _, loaded⟩ := bind_ok loaded
    obtain ⟨slots, within, loaded⟩ := bind_ok loaded
    obtain ⟨facts, typed, made⟩ := bind_ok loaded
    cases made
    exact .intro .anonymous (Note.convertedType_of_loadFacts typed) (slots_denote within each)
  | call note callee arguments resolved calleeDenotes each =>
    obtain ⟨loc, _, loaded⟩ := bind_ok loaded
    obtain ⟨called, calleeLoaded, loaded⟩ := bind_ok loaded
    obtain ⟨slots, within, loaded⟩ := bind_ok loaded
    obtain ⟨facts, typed, made⟩ := bind_ok loaded
    cases made
    exact .intro (.call rfl) (Note.convertedType_of_loadFacts typed)
      (.cons (calleeDenotes called calleeLoaded) (slots_denote within each))
  | cast _ _ _ denotes | lambda _ _ _ denotes | member _ _ _ denotes | paren _ _ denotes =>
    obtain ⟨loc, _, loaded⟩ := bind_ok loaded
    obtain ⟨inner, within, loaded⟩ := bind_ok loaded
    obtain ⟨facts, typed, made⟩ := bind_ok loaded
    cases made
    exact .intro (by constructor) (Note.convertedType_of_loadFacts typed)
      (.cons (denotes inner within) .nil)
  | identifier note name =>
    obtain ⟨loc, _, loaded⟩ := bind_ok loaded
    obtain ⟨facts, typed, made⟩ := bind_ok loaded
    cases made
    exact .intro .identifier (Note.convertedType_of_loadFacts typed) .nil
  | literal note value =>
    obtain ⟨loc, _, loaded⟩ := bind_ok loaded
    obtain ⟨own, _, loaded⟩ := bind_ok loaded
    obtain ⟨facts, typed, made⟩ := bind_ok loaded
    cases made
    exact .intro .literal (Note.convertedType_of_loadFacts typed) .nil
  | other note text children each =>
    obtain ⟨loc, _, loaded⟩ := bind_ok loaded
    obtain ⟨parts, within, loaded⟩ := bind_ok loaded
    obtain ⟨facts, typed, made⟩ := bind_ok loaded
    cases made
    exact .intro .other (Note.convertedType_of_loadFacts typed) (children_denote within each)

theorem loadChildren_denotes {entries : List ExprEntry} {roots : List Expr}
    (loaded : loadChildren (TypeId.first count) entries = .ok roots) :
    List.Forall₂ Denotes entries roots :=
  children_denote loaded fun entry _ => load_denotes entry

end ExprEntry

/-! ## Calls -/

/-- Items that are related in order have partners on both sides. -/
theorem forall₂_partner {α β : Type} {related : α → β → Prop} {items : List α} {others : List β}
    (pairwise : List.Forall₂ related items others) :
    (∀ item ∈ items, ∃ other ∈ others, related item other) ∧
      ∀ other ∈ others, ∃ item ∈ items, related item other := by
  induction pairwise with
  | nil => simp
  | cons first _ ih =>
    obtain ⟨rightward, leftward⟩ := ih
    constructor
    · intro item listed
      rcases List.mem_cons.mp listed with rfl | listed
      · exact ⟨_, List.mem_cons_self, first⟩
      · obtain ⟨other, given, holds⟩ := rightward item listed
        exact ⟨other, List.mem_cons_of_mem _ given, holds⟩
    · intro other listed
      rcases List.mem_cons.mp listed with rfl | listed
      · exact ⟨_, List.mem_cons_self, first⟩
      · obtain ⟨item, given, holds⟩ := leftward other listed
        exact ⟨item, List.mem_cons_of_mem _ given, holds⟩

namespace ExprEntry

variable {entry root : ExprEntry} {expr : Expr} {call : Call}

/-- What holds of an entry whenever it holds of everything directly inside holds of every entry. -/
theorem immediate_induction {motive : ExprEntry → Prop}
    (step : ∀ entry, (∀ part ∈ entry.immediate, motive part) → motive entry) (entry : ExprEntry) :
    motive entry := by
  induction entry with
  | anonymous note members each => exact step _ (List.forall_mem_map.mpr each)
  | call note callee arguments resolved own each =>
    exact step _ (List.forall_mem_cons.mpr ⟨own, List.forall_mem_map.mpr each⟩)
  | cast _ _ _ own | lambda _ _ _ own | member _ _ _ own | paren _ _ own =>
    exact step _ (List.forall_mem_singleton.mpr own)
  | identifier | literal => exact step _ (by simp [immediate])
  | other note text children each => exact step _ each

/-- Every call of a tree is denoted by an entry. -/
theorem Denotes.inside_of_holds (denotes : Denotes root expr) (holds : Expr.Holds call expr) :
    ∃ entry outer, Inside entry root ∧
      Denotes entry (.call ⟨outer, call.mark⟩ call.callee call.arguments) := by
  induction root using immediate_induction generalizing expr with
  | step root ih =>
    rcases holds.here_or_immediate with ⟨outer, rfl⟩ | ⟨part, listed, holds⟩
    · exact ⟨root, outer, .here, denotes⟩
    · obtain ⟨_, _, within⟩ := denotes
      obtain ⟨origin, given, partDenotes⟩ := (forall₂_partner within).2 part listed
      obtain ⟨entry, outer, inside, entryDenotes⟩ := ih origin given partDenotes holds
      exact ⟨entry, outer, .deeper given inside, entryDenotes⟩

/-- Every entry of a tree denotes something, whose calls are calls of the whole tree. -/
theorem Denotes.holds_of_inside (inside : Inside entry root) (denotes : Denotes root expr) :
    ∃ part, Denotes entry part ∧ ∀ call, Expr.Holds call part → Expr.Holds call expr := by
  induction inside generalizing expr with
  | here => exact ⟨expr, denotes, fun _ holds => holds⟩
  | deeper listed _ ih =>
    obtain ⟨_, _, within⟩ := denotes
    obtain ⟨child, given, childDenotes⟩ := (forall₂_partner within).1 _ listed
    obtain ⟨part, partDenotes, holds⟩ := ih childDenotes
    exact ⟨part, partDenotes, fun call inPart => .of_immediate given (holds call inPart)⟩

end ExprEntry
end QueryAudit
