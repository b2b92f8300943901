import QueryAudit.Proofs.TextSlices
import QueryAudit.Proofs.TreeInduction
import QueryAudit.Tree.Locate

/-! Locating a tree against printing it. Locating writes the text that printing gives, and changes
nothing but places; afterwards every node that was written stands at its own text. Parts of a
shape that is given by its text are not written and stay as they are. -/
namespace QueryAudit

/-- The bytes of a place are exactly the given text. -/
def Loc.Covers (text : String) (loc : Loc) (own : String) : Prop :=
  Text.slice? text loc.start loc.stop = some own

namespace Expr

variable {start : Nat} {text mark : String} {expr part : Expr} {slot : Slot Expr}
  {group : List (Slot Expr)}

/-! ## What is written -/

/-- The expressions directly inside an expression that are written with it: all of them, unless
the expression is given by its text. -/
def parts : Expr → List Expr
  | other .. => []
  | expr => expr.immediate

theorem parts_subset (expr : Expr) : expr.parts ⊆ expr.immediate := by
  cases expr with
  | other => exact List.nil_subset _
  | _ => exact List.Subset.refl _

/-- An expression is written as part of another, directly or further inside. -/
inductive Writes (part : Expr) : Expr → Prop where
  | here : Writes part part
  | inside {expr inner : Expr} (listed : inner ∈ expr.parts) (deeper : Writes part inner) :
      Writes part expr

/-- The arguments or members of an expression, each with the mark that stands behind its name. -/
def slots : Expr → List (String × Slot Expr)
  | anonymous _ members => members.map (" = ", ·)
  | call _ _ arguments => arguments.map (": ", ·)
  | _ => []

theorem value_mem_parts (listed : (mark, slot) ∈ expr.slots) : slot.value ∈ expr.parts := by
  cases expr with
  | anonymous marks members =>
    obtain ⟨own, isOwn, same⟩ := List.mem_map.mp listed
    cases same
    exact List.mem_map_of_mem isOwn
  | call marks callee arguments =>
    obtain ⟨own, isOwn, same⟩ := List.mem_map.mp listed
    cases same
    exact List.mem_cons_of_mem _ (List.mem_map_of_mem isOwn)
  | _ => cases listed

/-- The text of an argument or a member: its value, after its name if it has one. -/
def slotText (mark : String) (slot : Slot Expr) : String :=
  slot.name.elim slot.value.print fun name => name ++ mark ++ slot.value.print

theorem printName_append (slot : Slot Expr) :
    printName mark slot.name ++ slot.value.print = slotText mark slot := by
  unfold slotText
  cases slot.name with
  | none => exact String.empty_append
  | some name => rfl

theorem printSlots_eq (group : List (Slot Expr)) :
    printSlots mark group = group.map (slotText mark) := by
  induction group with
  | nil => rfl
  | cons slot rest ih => rw [printSlots, ih, List.map_cons, ← printName_append]

mutual

/-- A tree whose written nodes have lost their places; what is not written keeps them. -/
def unplaced : Expr → Expr
  | anonymous marks members => anonymous (marks.place {}) (unplacedSlots members)
  | call marks callee arguments =>
    call (marks.place {}) (unplaced callee) (unplacedSlots arguments)
  | cast marks typeName value => cast (marks.place {}) typeName (unplaced value)
  | identifier marks name => identifier (marks.place {}) name
  | lambda marks parameters body => lambda (marks.place {}) parameters (unplaced body)
  | literal marks value => literal (marks.place {}) value
  | member marks left name => member (marks.place {}) (unplaced left) name
  | paren marks value => paren (marks.place {}) (unplaced value)
  | other marks text children => other (marks.place {}) text children

def unplacedSlots : List (Slot Expr) → List (Slot Expr)
  | [] => []
  | ⟨own, name, value⟩ :: rest => ⟨own.place {}, name, unplaced value⟩ :: unplacedSlots rest

end

/-! ## The text -/

theorem locateSlots_text
    (same : ∀ slot ∈ group, ∀ start, (slot.value.locateAt start).2 = slot.value.print)
    (start : Nat) : (locateSlots mark start group).2 = printSlots mark group := by
  induction group generalizing start with
  | nil => rfl
  | cons slot rest ih =>
    have others := ih fun other listed => same other (List.mem_cons_of_mem _ listed)
    simp only [locateSlots, printSlots, others, same slot List.mem_cons_self]

/-- Locating writes what printing gives. -/
theorem locateAt_text (expr : Expr) (start : Nat) : (expr.locateAt start).2 = expr.print := by
  induction expr generalizing start with
  | anonymous marks members ih => simp only [locateAt, print, locateSlots_text ih]
  | call marks callee arguments ihCallee ihArguments =>
    simp only [locateAt, print, ihCallee, locateSlots_text ihArguments]
  | cast _ _ _ ih | lambda _ _ _ ih | member _ _ _ ih | paren _ _ ih =>
    simp only [locateAt, print, ih]
  | identifier | literal | other => simp only [locateAt, print]

/-! ## The tree -/

theorem unplacedSlots_locateSlots
    (same : ∀ slot ∈ group, ∀ start, (slot.value.locateAt start).1.unplaced = slot.value.unplaced)
    (start : Nat) : unplacedSlots (locateSlots mark start group).1 = unplacedSlots group := by
  induction group generalizing start with
  | nil => rfl
  | cons slot rest ih =>
    have others := ih fun other listed => same other (List.mem_cons_of_mem _ listed)
    simp only [locateSlots, unplacedSlots, others, same slot List.mem_cons_self]
    rfl

/-- Locating changes nothing but the places of written nodes. -/
theorem unplaced_locateAt (expr : Expr) (start : Nat) :
    (expr.locateAt start).1.unplaced = expr.unplaced := by
  induction expr generalizing start with
  | anonymous marks members ih =>
    simp only [locateAt, unplaced, unplacedSlots_locateSlots ih]
    rfl
  | call marks callee arguments ihCallee ihArguments =>
    simp only [locateAt, unplaced, ihCallee, unplacedSlots_locateSlots ihArguments]
    rfl
  | cast _ _ _ ih | lambda _ _ _ ih | member _ _ _ ih | paren _ _ ih =>
    simp only [locateAt, unplaced, ih]
    rfl
  | identifier | literal | other =>
    simp only [locateAt, unplaced]
    rfl

theorem printSlots_unplaced (same : ∀ slot ∈ group, slot.value.unplaced.print = slot.value.print) :
    printSlots mark (unplacedSlots group) = printSlots mark group := by
  induction group with
  | nil => rfl
  | cons slot rest ih =>
    have others := ih fun other listed => same other (List.mem_cons_of_mem _ listed)
    simp only [unplacedSlots, printSlots, others, same slot List.mem_cons_self]

theorem print_unplaced (expr : Expr) : expr.unplaced.print = expr.print := by
  induction expr with
  | anonymous marks members ih => simp only [unplaced, print, printSlots_unplaced ih]
  | call marks callee arguments ihCallee ihArguments =>
    simp only [unplaced, print, ihCallee, printSlots_unplaced ihArguments]
  | cast _ _ _ ih | lambda _ _ _ ih | member _ _ _ ih | paren _ _ ih =>
    simp only [unplaced, print, ih]
  | identifier | literal | other => simp only [unplaced, print]

theorem print_locateAt (expr : Expr) (start : Nat) :
    (expr.locateAt start).1.print = expr.print := by
  rw [← print_unplaced, unplaced_locateAt, print_unplaced]

theorem slotText_located (own : Mark) (slot : Slot Expr) (start : Nat) :
    slotText mark ⟨own, slot.name, (slot.value.locateAt start).1⟩ = slotText mark slot := by
  simp only [slotText, print_locateAt]

/-! ## The places -/

@[simp] theorem marks_locateAt (expr : Expr) (start : Nat) :
    (expr.locateAt start).1.marks = expr.marks.place (.spanning start expr.print) := by
  rw [← locateAt_text expr start]
  cases expr <;> rfl

/-- An argument or a member is located where its text stands among the others, and its value
behind its name. -/
theorem mem_locateSlots (listed : slot ∈ (locateSlots mark start group).1) :
    ∃ origin ∈ group, ∃ offset,
      Text.Stands (", ".intercalate (group.map (slotText mark))) offset (slotText mark origin) ∧
      slot = ⟨origin.mark.place (.spanning (start + offset) (slotText mark origin)), origin.name,
        (origin.value.locateAt (start + offset + (printName mark origin.name).utf8ByteSize)).1⟩ := by
  induction group generalizing start with
  | nil => cases listed
  | cons first rest ih =>
    have firstText : printName mark first.name ++ (first.value.locateAt
        (start + (printName mark first.name).utf8ByteSize)).2 = slotText mark first := by
      rw [locateAt_text, printName_append]
    simp only [locateSlots, firstText] at listed
    rcases List.mem_cons.mp listed with rfl | later
    · refine ⟨first, List.mem_cons_self, 0, ?_, rfl⟩
      cases rest with
      | nil =>
        rw [List.map_singleton, String.intercalate_singleton]
        exact Text.stands_self _
      | cons second others =>
        rw [List.map_cons, List.map_cons, String.intercalate_cons_cons, String.append_assoc]
        exact Text.stands_before _ _
    · obtain ⟨origin, isOrigin, offset, stands, rfl⟩ := ih later
      refine ⟨origin, List.mem_cons_of_mem _ isOrigin,
        (slotText mark first ++ ", ").utf8ByteSize + offset, ?_, ?_⟩
      · have more : rest.map (slotText mark) ≠ [] := by
          rw [ne_eq, List.map_eq_nil_iff]
          rintro rfl
          cases isOrigin
        rw [List.map_cons, String.intercalate_cons_of_ne_nil more]
        exact (Text.stands_after _ _).trans stands
      · simp only [Nat.add_assoc]

theorem stands_value (mark : String) (slot : Slot Expr) :
    Text.Stands (slotText mark slot) (printName mark slot.name).utf8ByteSize slot.value.print := by
  rw [← printName_append]
  exact Text.stands_after _ _

theorem stands_members {texts : List String} (some : texts ≠ []) :
    Text.Stands (printMembers texts) "new \x7b ".utf8ByteSize (", ".intercalate texts) := by
  have isEmpty : texts.isEmpty = false := by simpa using some
  have printed : printMembers texts = "new \x7b " ++ ", ".intercalate texts ++ " \x7d" := by
    simp only [printMembers, isEmpty, Bool.false_eq_true, ↓reduceIte]
    rfl
  rw [printed]
  exact Text.stands_between _ _ _

/-- Arguments and members of a located expression are those of the expression, each at its own
text. -/
theorem mem_slots_locateAt (listed : (mark, slot) ∈ (expr.locateAt start).1.slots) :
    ∃ origin, (mark, origin) ∈ expr.slots ∧ ∃ offset,
      Text.Stands expr.print offset (slotText mark origin) ∧
      slot = ⟨origin.mark.place (.spanning (start + offset) (slotText mark origin)), origin.name,
        (origin.value.locateAt (start + offset + (printName mark origin.name).utf8ByteSize)).1⟩ := by
  cases expr with
  | anonymous marks members =>
    obtain ⟨located, isLocated, same⟩ := List.mem_map.mp listed
    cases same
    obtain ⟨origin, isOrigin, offset, stands, rfl⟩ := mem_locateSlots isLocated
    refine ⟨origin, List.mem_map_of_mem isOrigin, "new \x7b ".utf8ByteSize + offset, ?_, ?_⟩
    · have some : members.map (slotText " = ") ≠ [] := by
        rw [ne_eq, List.map_eq_nil_iff]
        rintro rfl
        cases isOrigin
      rw [print, printSlots_eq]
      exact (stands_members some).trans stands
    · simp only [Nat.add_assoc]
  | call marks callee arguments =>
    obtain ⟨located, isLocated, same⟩ := List.mem_map.mp listed
    cases same
    obtain ⟨origin, isOrigin, offset, stands, rfl⟩ := mem_locateSlots isLocated
    refine ⟨origin, List.mem_map_of_mem isOrigin,
      (callee.print ++ "(").utf8ByteSize + offset, ?_, ?_⟩
    · rw [print, printSlots_eq]
      exact (Text.stands_between _ _ _).trans stands
    · simp only [locateAt_text, Nat.add_assoc]
  | _ => cases listed

/-- The parts of a located expression are the parts of the expression, each located where its text
stands. -/
theorem mem_parts_locateAt (listed : part ∈ (expr.locateAt start).1.parts) :
    ∃ origin ∈ expr.parts, ∃ offset, Text.Stands expr.print offset origin.print ∧
      part = (origin.locateAt (start + offset)).1 := by
  -- the values of arguments and members stand behind their names
  have ofSlot {mark : String} {slot : Slot Expr}
      (isSlot : (mark, slot) ∈ (expr.locateAt start).1.slots) :
      ∃ origin ∈ expr.parts, ∃ offset, Text.Stands expr.print offset origin.print ∧
        slot.value = (origin.locateAt (start + offset)).1 := by
    obtain ⟨origin, isOrigin, offset, stands, rfl⟩ := mem_slots_locateAt isSlot
    exact ⟨origin.value, value_mem_parts isOrigin, _, stands.trans (stands_value _ origin),
      by simp only [Nat.add_assoc]⟩
  cases expr with
  | anonymous marks members =>
    obtain ⟨slot, isSlot, rfl⟩ := List.mem_map.mp listed
    exact ofSlot (List.mem_map_of_mem isSlot)
  | call marks callee arguments =>
    rcases List.mem_cons.mp listed with rfl | later
    · refine ⟨callee, List.mem_cons_self, 0, ?_, rfl⟩
      rw [print, String.append_assoc, String.append_assoc]
      exact Text.stands_before _ _
    · obtain ⟨slot, isSlot, rfl⟩ := List.mem_map.mp later
      exact ofSlot (List.mem_map_of_mem isSlot)
  | cast marks typeName value =>
    cases List.mem_singleton.mp listed
    exact ⟨value, List.mem_singleton_self _, _, Text.stands_after _ _, rfl⟩
  | lambda marks parameters body =>
    cases List.mem_singleton.mp listed
    exact ⟨body, List.mem_singleton_self _, _, Text.stands_after _ _, rfl⟩
  | member marks left name =>
    cases List.mem_singleton.mp listed
    refine ⟨left, List.mem_singleton_self _, 0, ?_, rfl⟩
    rw [print, String.append_assoc]
    exact Text.stands_before _ _
  | paren marks value =>
    cases List.mem_singleton.mp listed
    exact ⟨value, List.mem_singleton_self _, _, Text.stands_between _ _ _, rfl⟩
  | identifier | literal | other => cases listed

/-- What is written of a located tree is what is written of the tree, located where its text
stands. -/
theorem Writes.located (writes : Writes part (expr.locateAt start).1) :
    ∃ origin offset, Writes origin expr ∧ Text.Stands expr.print offset origin.print ∧
      part = (origin.locateAt (start + offset)).1 := by
  generalize whole : (expr.locateAt start).1 = located at writes
  induction writes generalizing expr start with
  | here => exact ⟨expr, 0, .here, Text.stands_self _, whole.symm⟩
  | inside listed _ ih =>
    rw [← whole] at listed
    obtain ⟨child, isChild, first, childStands, rfl⟩ := mem_parts_locateAt listed
    obtain ⟨origin, second, originWrites, stands, rfl⟩ := ih rfl
    exact ⟨origin, first + second, .inside isChild originWrites, childStands.trans stands,
      by rw [Nat.add_assoc]⟩

/-- Every written expression of a located tree has both of its nodes where it prints. -/
theorem Writes.placed (writes : Writes part expr.locate.1) :
    ∃ start, Text.Stands expr.print start part.print ∧
      part.marks = part.marks.place (.spanning start part.print) := by
  obtain ⟨origin, offset, _, stands, rfl⟩ := writes.located
  rw [Nat.zero_add, print_locateAt, marks_locateAt]
  exact ⟨offset, stands, rfl⟩

/-- Every argument and member of a located tree stands where its text does. -/
theorem Writes.slot_placed (writes : Writes part expr.locate.1) (listed : (mark, slot) ∈ part.slots) :
    ∃ start, Text.Stands expr.print start (slotText mark slot) ∧
      slot.mark.loc = .spanning start (slotText mark slot) := by
  obtain ⟨origin, offset, _, stands, rfl⟩ := writes.located
  obtain ⟨own, _, inner, ownStands, rfl⟩ := mem_slots_locateAt listed
  rw [slotText_located, Nat.zero_add]
  exact ⟨offset + inner, stands.trans ownStands, rfl⟩

/-- Locating a tree gives the text that printing gives and changes nothing but places, and none
below a shape that is given by its text. Every other node stands at its own text afterwards: an
expression with both of its nodes at what it prints, an argument and a member at its value with
the name before it. -/
theorem locate_agrees_with_print (expr : Expr) :
    let located := expr.locate.1
    let text := expr.locate.2
    text = expr.print ∧ located.unplaced = expr.unplaced ∧
      ∀ part, Writes part located →
        part.marks.outer.loc = part.marks.inner.loc ∧ part.loc.Covers text part.print ∧
        ∀ mark slot, (mark, slot) ∈ part.slots → slot.mark.loc.Covers text (slotText mark slot) := by
  intro located text
  have whole : text = expr.print := locateAt_text expr 0
  refine ⟨whole, unplaced_locateAt expr 0, ?_⟩
  intro part writes
  obtain ⟨start, stands, marks⟩ := writes.placed
  refine ⟨?_, ?_, ?_⟩
  · rw [marks]
    rfl
  · rw [loc, marks, whole]
    exact stands
  · intro mark slot listed
    obtain ⟨slotStart, slotStands, place⟩ := writes.slot_placed listed
    rw [place, whole]
    exact slotStands

end Expr
end QueryAudit
