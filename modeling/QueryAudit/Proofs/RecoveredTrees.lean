import Mathlib.Data.List.Forall2
import Mathlib.Data.List.Permutation
import QueryAudit.Proofs.EntryTrees
import QueryAudit.Proofs.LocatedTrees

/-! Loading loses nothing of the trees of a dump. Every expression becomes two nodes and every
argument and member one more, and what an entry is annotated with is put on some of them; from the
tree alone the entries can be told again, but for a place that was not given and the spelling of a
literal. No node carries anything that its entry does not say. -/
namespace QueryAudit

/-! ## Entries as they are understood -/

/-- Annotations of an expression whose place is always given. -/
structure PlacedNote where
  loc : Loc
  convertedType : Option Nat

/-- An entry with the place of every expression, and literals in the place of JSON values. -/
inductive PlacedEntry where
  | anonymous (note : PlacedNote) (members : List (SlotEntry PlacedEntry))
  | call (note : PlacedNote) (callee : PlacedEntry) (arguments : List (SlotEntry PlacedEntry))
      (resolved : Option Symbol)
  | cast (note : PlacedNote) (typeName : String) (value : PlacedEntry)
  | identifier (note : PlacedNote) (name : String)
  | lambda (note : PlacedNote) (parameters : List String) (body : PlacedEntry)
  /-- A JSON value that is an array or an object stands for no literal. -/
  | literal (note : PlacedNote) (value : Option Literal)
  | member (note : PlacedNote) (left : PlacedEntry) (name : String)
  | paren (note : PlacedNote) (value : PlacedEntry)
  | other (note : PlacedNote) (text : String) (children : List PlacedEntry)

/-- The literal that a JSON value stands for. -/
def Literal.ofJson? : Json → Option Literal
  | .null => some .null
  | .bool value => some (.bool value)
  | .number value => some (.number (Json.numberText value))
  | .string value => some (.string value)
  | .array _ | .object _ => none

/-- An expression without a place stands at the beginning of the text. -/
def Note.placed (note : Note) : PlacedNote :=
  ⟨note.loc.getD ⟨0, 0⟩, note.convertedType⟩

namespace ExprEntry

mutual

/-- An entry with absent places filled in and its literals read. -/
def placed : ExprEntry → PlacedEntry
  | anonymous note members => .anonymous note.placed (placedSlots members)
  | call note callee arguments resolved =>
    .call note.placed (placed callee) (placedSlots arguments) resolved
  | cast note typeName value => .cast note.placed typeName (placed value)
  | identifier note name => .identifier note.placed name
  | lambda note parameters body => .lambda note.placed parameters (placed body)
  | literal note value => .literal note.placed (Literal.ofJson? value)
  | member note left name => .member note.placed (placed left) name
  | paren note value => .paren note.placed (placed value)
  | other note text children => .other note.placed text (placedChildren children)

def placedSlots : List (SlotEntry ExprEntry) → List (SlotEntry PlacedEntry)
  | [] => []
  | ⟨name, value⟩ :: rest => ⟨name, placed value⟩ :: placedSlots rest

def placedChildren : List ExprEntry → List PlacedEntry
  | [] => []
  | child :: rest => placed child :: placedChildren rest

end

attribute [simp] placed placedSlots placedChildren

theorem placedChildren_eq (children : List ExprEntry) :
    placedChildren children = children.map placed := by
  induction children with
  | nil => rfl
  | cons child rest ih => rw [placedChildren, ih, List.map_cons]

end ExprEntry

/-! ## Entries told from a tree -/

/-- The annotations of an expression, told from its outer node; types are numbered from `base`. -/
def Marks.recovered (base : Nat) (marks : Marks) : PlacedNote :=
  ⟨marks.outer.loc, marks.outer.facts.convertedType.map fun type => type.index - base⟩

namespace Expr

mutual

/-- The entry that a tree was loaded from, when the types of its dump are numbered from `base`. -/
def recovered (base : Nat) : Expr → PlacedEntry
  | anonymous marks members => .anonymous (marks.recovered base) (recoveredSlots base members)
  | call marks callee arguments =>
    .call (marks.recovered base) (recovered base callee) (recoveredSlots base arguments)
      marks.inner.facts.symbol
  | cast marks typeName value => .cast (marks.recovered base) typeName (recovered base value)
  | identifier marks name => .identifier (marks.recovered base) name
  | lambda marks parameters body => .lambda (marks.recovered base) parameters (recovered base body)
  | literal marks value => .literal (marks.recovered base) (some value)
  | member marks left name => .member (marks.recovered base) (recovered base left) name
  | paren marks value => .paren (marks.recovered base) (recovered base value)
  | other marks text children =>
    .other (marks.recovered base) text (recoveredChildren base children)

def recoveredSlots (base : Nat) : List (Slot Expr) → List (SlotEntry PlacedEntry)
  | [] => []
  | ⟨_, name, value⟩ :: rest => ⟨name, recovered base value⟩ :: recoveredSlots base rest

def recoveredChildren (base : Nat) : List Expr → List PlacedEntry
  | [] => []
  | child :: rest => recovered base child :: recoveredChildren base rest

end

attribute [simp] recovered recoveredSlots recoveredChildren

variable {base : Nat}

theorem recoveredChildren_eq (children : List Expr) :
    recoveredChildren base children = children.map (recovered base) := by
  induction children with
  | nil => rfl
  | cons child rest ih => rw [recoveredChildren, ih, List.map_cons]

end Expr

/-! ## What the nodes carry -/

namespace ExprEntry

/-- The symbol that an entry gives for a call. -/
def resolved? : ExprEntry → Option Symbol
  | call _ _ _ resolved => resolved
  | _ => none

/-- The nodes of an expression and of everything inside it carry what its entries are annotated with,
and nothing else. Both nodes of an expression stand at the place of the entry; its type is on the
outer node, and the symbol of a call on the inner one. An argument or a member stands where its value
does, and carries no facts. -/
inductive Marked (base : Nat) : ExprEntry → Expr → Prop where
  | intro {entry : ExprEntry} {expr : Expr}
      (outer : expr.marks.outer = ⟨entry.note.loc.getD ⟨0, 0⟩,
        { convertedType := entry.note.convertedType.map fun index => ⟨base + index⟩ }⟩)
      (inner : expr.marks.inner = ⟨entry.note.loc.getD ⟨0, 0⟩, { symbol := entry.resolved? }⟩)
      (slots : ∀ slot ∈ expr.slots, slot.2.mark = ⟨slot.2.value.loc, {}⟩)
      (inside : List.Forall₂ (Marked base) entry.immediate expr.immediate) : Marked base entry expr

end ExprEntry

theorem Note.load_ok {note : Note} {loc : Loc} (loaded : note.load = .ok loc) :
    loc = note.loc.getD ⟨0, 0⟩ := by
  obtain ⟨place, type⟩ := note
  cases place with
  | none =>
    cases loaded
    rfl
  | some given =>
    by_cases turned : given.stop < given.start
    · simp [load, turned] at loaded
    · simpa [load, turned] using loaded.symm

theorem Literal.load_ok {value : Json} {literal : Literal}
    (loaded : Literal.load value = .ok literal) : Literal.ofJson? value = some literal := by
  cases value with
  | null | bool | number | string =>
    cases loaded
    rfl
  | array | object => cases loaded

/-- The outer node of an expression tells what its entry is annotated with. -/
theorem Marks.recovered_loaded (base : Nat) (note : Note) (inner : Mark) :
    Marks.recovered base ⟨⟨note.loc.getD ⟨0, 0⟩,
      { convertedType := note.convertedType.map fun index => ⟨base + index⟩ }⟩, inner⟩ =
      note.placed := by
  have told (index : Nat) : base + index - base = index := Nat.add_sub_cancel_left ..
  simp only [recovered, Note.placed, Option.map_map, Function.comp_def, told, Option.map_id']

namespace ExprEntry

variable {base count : Nat} {ids : Array TypeId}

/-- An entry that can be told from an expression and accounts for all that its nodes carry. -/
structure Kept (base : Nat) (entry : ExprEntry) (expr : Expr) : Prop where
  told : expr.recovered base = entry.placed
  marked : Marked base entry expr

theorem slots_kept {entries : List (SlotEntry ExprEntry)} {slots : List (Slot Expr)}
    (loaded : loadSlots ids entries = .ok slots)
    (each : ∀ entry ∈ entries, ∀ expr, entry.value.load ids = .ok expr →
      Kept base entry.value expr) :
    Expr.recoveredSlots base slots = placedSlots entries ∧
      (∀ slot ∈ slots, slot.mark = ⟨slot.value.loc, {}⟩) ∧
      List.Forall₂ (Marked base) (entries.map SlotEntry.value) (slots.map Slot.value) := by
  have both := (List.forall₂_and_left _ _).mpr ⟨each, loadSlots_ok loaded⟩
  clear loaded each
  induction both with
  | nil => exact ⟨rfl, List.forall_mem_nil _, .nil⟩
  | @cons entry slot _ _ first _ ih =>
    obtain ⟨kept, valueLoaded, made⟩ := first
    obtain ⟨told, marked⟩ := kept slot.value valueLoaded
    obtain ⟨restTold, restPlaced, restMarked⟩ := ih
    rw [made]
    refine ⟨?_, List.forall_mem_cons.mpr ⟨rfl, restPlaced⟩, .cons marked restMarked⟩
    rw [Expr.recoveredSlots, placedSlots, told, restTold]

theorem children_kept {entries : List ExprEntry} {children : List Expr}
    (loaded : loadChildren ids entries = .ok children)
    (each : ∀ entry ∈ entries, ∀ expr, entry.load ids = .ok expr → Kept base entry expr) :
    Expr.recoveredChildren base children = placedChildren entries ∧
      List.Forall₂ (Marked base) entries children := by
  have both := (List.forall₂_and_left _ _).mpr ⟨each, loadChildren_ok loaded⟩
  clear loaded each
  induction both with
  | nil => exact ⟨rfl, .nil⟩
  | @cons entry child _ _ first _ ih =>
    obtain ⟨kept, childLoaded⟩ := first
    obtain ⟨told, marked⟩ := kept child childLoaded
    refine ⟨?_, .cons marked ih.2⟩
    rw [Expr.recoveredChildren, placedChildren, told, ih.1]

/-- Nothing of an entry is lost when it is loaded. -/
theorem load_kept (entry : ExprEntry) (expr : Expr)
    (loaded : entry.load (TypeId.following base count) = .ok expr) : Kept base entry expr := by
  induction entry generalizing expr with
  | anonymous note members each =>
    obtain ⟨loc, placed, loaded⟩ := bind_ok loaded
    obtain ⟨slots, within, loaded⟩ := bind_ok loaded
    obtain ⟨facts, typed, made⟩ := bind_ok loaded
    cases made
    cases Note.load_ok placed
    cases Note.loadFacts_ok typed
    obtain ⟨told, places, marked⟩ := slots_kept within each
    refine ⟨?_, .intro rfl rfl ?_ marked⟩
    · rw [Expr.recovered, Marks.recovered_loaded, told, ExprEntry.placed]
    · exact List.forall_mem_map.mpr places
  | call note callee arguments resolved calleeKept each =>
    obtain ⟨loc, placed, loaded⟩ := bind_ok loaded
    obtain ⟨called, calleeLoaded, loaded⟩ := bind_ok loaded
    obtain ⟨slots, within, loaded⟩ := bind_ok loaded
    obtain ⟨facts, typed, made⟩ := bind_ok loaded
    cases made
    cases Note.load_ok placed
    cases Note.loadFacts_ok typed
    obtain ⟨calleeTold, calleeMarked⟩ := calleeKept called calleeLoaded
    obtain ⟨told, places, marked⟩ := slots_kept within each
    refine ⟨?_, .intro rfl rfl ?_ (.cons calleeMarked marked)⟩
    · rw [Expr.recovered, Marks.recovered_loaded, calleeTold, told, ExprEntry.placed]
    · exact List.forall_mem_map.mpr places
  | cast _ _ _ kept | lambda _ _ _ kept | member _ _ _ kept | paren _ _ kept =>
    obtain ⟨loc, placed, loaded⟩ := bind_ok loaded
    obtain ⟨inner, within, loaded⟩ := bind_ok loaded
    obtain ⟨facts, typed, made⟩ := bind_ok loaded
    cases made
    cases Note.load_ok placed
    cases Note.loadFacts_ok typed
    obtain ⟨told, marked⟩ := kept inner within
    refine ⟨?_, .intro rfl rfl (List.forall_mem_nil _) (.cons marked .nil)⟩
    rw [Expr.recovered, Marks.recovered_loaded, told, ExprEntry.placed]
  | identifier note name =>
    obtain ⟨loc, placed, loaded⟩ := bind_ok loaded
    obtain ⟨facts, typed, made⟩ := bind_ok loaded
    cases made
    cases Note.load_ok placed
    cases Note.loadFacts_ok typed
    refine ⟨?_, .intro rfl rfl (List.forall_mem_nil _) .nil⟩
    rw [Expr.recovered, Marks.recovered_loaded, ExprEntry.placed]
  | literal note value =>
    obtain ⟨loc, placed, loaded⟩ := bind_ok loaded
    obtain ⟨own, read, loaded⟩ := bind_ok loaded
    obtain ⟨facts, typed, made⟩ := bind_ok loaded
    cases made
    cases Note.load_ok placed
    cases Note.loadFacts_ok typed
    refine ⟨?_, .intro rfl rfl (List.forall_mem_nil _) .nil⟩
    rw [Expr.recovered, Marks.recovered_loaded, ExprEntry.placed, Literal.load_ok read]
  | other note text children each =>
    obtain ⟨loc, placed, loaded⟩ := bind_ok loaded
    obtain ⟨parts, within, loaded⟩ := bind_ok loaded
    obtain ⟨facts, typed, made⟩ := bind_ok loaded
    cases made
    cases Note.load_ok placed
    cases Note.loadFacts_ok typed
    obtain ⟨told, marked⟩ := children_kept within each
    refine ⟨?_, .intro rfl rfl (List.forall_mem_nil _) marked⟩
    rw [Expr.recovered, Marks.recovered_loaded, told, ExprEntry.placed]

end ExprEntry

namespace UnitDump

/-- The roots of a dump can be told from the trees that they are loaded as, given how many types the
store held before; and every node of these trees carries exactly what the entries say. -/
theorem load_keeps_trees (dump : UnitDump) (store : Store) (unit : LoadedUnit)
    (loaded : (dump.load store).1 = .ok unit) :
    unit.roots.map (Expr.recovered store.size) = dump.roots.map ExprEntry.placed ∧
      List.Forall₂ (ExprEntry.Marked store.size) dump.roots unit.roots := by
  obtain ⟨_, _, _, stopped⟩ := dump.load_cases store
  rcases stopped with ⟨_, failed, _⟩ | ⟨_, _, rooted⟩
  · cases failed.symm.trans loaded
  · obtain ⟨roots, rootsLoaded, rfl⟩ := map_ok_iff.mp (rooted.symm.trans loaded)
    rw [← Expr.recoveredChildren_eq, ← ExprEntry.placedChildren_eq]
    exact ExprEntry.children_kept rootsLoaded fun entry _ => entry.load_kept

/-- A query for orders with a named selector and a limit; only some places are given. -/
def pagedDump : UnitDump where
  file := "Paged"
  types := [.array 1 1, .named "Order" []]
  roots := [.call { loc := some ⟨0, 48⟩ }
    (.member {} (.identifier { loc := some ⟨0, 6⟩, convertedType := some 0 } "orders") "Page")
    [⟨some "selector", .paren {} (.lambda { loc := some ⟨23, 40⟩ } ["o"]
        (.anonymous {} [⟨some "Own",
          .identifier { loc := some ⟨36, 37⟩, convertedType := some 1 } "o"⟩]))⟩,
      ⟨none, .literal { loc := some ⟨42, 44⟩ } (.ofNat 20)⟩]
    (some (.method "Page" none))]

/-- The types of the dump follow the nineteen scalars of the store. -/
theorem load_keeps_trees_paged :
    ∃ unit, (pagedDump.load .empty).1 = .ok unit ∧
      unit.roots.map (Expr.recovered Store.empty.size) = pagedDump.roots.map ExprEntry.placed ∧
      List.Forall₂ (ExprEntry.Marked Store.empty.size) pagedDump.roots unit.roots := by
  have loaded : (pagedDump.load .empty).1 = .ok ⟨"Paged", none,
      [.call ⟨⟨⟨0, 48⟩, {}⟩, ⟨⟨0, 48⟩, { symbol := some (.method "Page" none) }⟩⟩
        (.member {} (.identifier ⟨⟨⟨0, 6⟩, { convertedType := some ⟨19⟩ }⟩, ⟨⟨0, 6⟩, {}⟩⟩ "orders")
          "Page")
        [⟨{}, some "selector", .paren {} (.lambda ⟨⟨⟨23, 40⟩, {}⟩, ⟨⟨23, 40⟩, {}⟩⟩ ["o"]
            (.anonymous {} [⟨⟨⟨36, 37⟩, {}⟩, some "Own",
              .identifier ⟨⟨⟨36, 37⟩, { convertedType := some ⟨20⟩ }⟩, ⟨⟨36, 37⟩, {}⟩⟩ "o"⟩]))⟩,
          ⟨⟨⟨42, 44⟩, {}⟩, none, .literal ⟨⟨⟨42, 44⟩, {}⟩, ⟨⟨42, 44⟩, {}⟩⟩ (.number "20")⟩]]⟩ := by
    cbv
  exact ⟨_, loaded, load_keeps_trees pagedDump .empty _ loaded⟩

end UnitDump
end QueryAudit
