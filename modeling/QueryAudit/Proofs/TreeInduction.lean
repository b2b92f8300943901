import QueryAudit.Tree.Visit

/-! Induction over trees, with one hypothesis for every part of an expression, and the calls of a
tree: visiting meets every call that stands anywhere in it, and nothing else. -/
namespace QueryAudit.Expr

/-- What holds of an expression whenever it holds of its parts holds of every expression. -/
@[induction_eliminator]
theorem induction {motive : Expr → Prop}
    (anonymous : ∀ marks members, (∀ slot ∈ members, motive slot.value) →
      motive (.anonymous marks members))
    (call : ∀ marks callee arguments, motive callee → (∀ slot ∈ arguments, motive slot.value) →
      motive (.call marks callee arguments))
    (cast : ∀ marks typeName value, motive value → motive (.cast marks typeName value))
    (identifier : ∀ marks name, motive (.identifier marks name))
    (lambda : ∀ marks parameters body, motive body → motive (.lambda marks parameters body))
    (literal : ∀ marks value, motive (.literal marks value))
    (member : ∀ marks left name, motive left → motive (.member marks left name))
    (paren : ∀ marks value, motive value → motive (.paren marks value))
    (other : ∀ marks text children, (∀ child ∈ children, motive child) →
      motive (.other marks text children)) (expr : Expr) : motive expr :=
  @Expr.rec motive (fun slots => ∀ slot ∈ slots, motive slot.value)
    (fun children => ∀ child ∈ children, motive child) (fun slot => motive slot.value)
    anonymous call cast identifier lambda literal member paren other
    (fun _ none => absurd none List.not_mem_nil)
    (fun _ _ first rest slot listed => by
      rcases List.mem_cons.mp listed with rfl | listed
      · exact first
      · exact rest slot listed)
    (fun _ none => absurd none List.not_mem_nil)
    (fun _ _ first rest child listed => by
      rcases List.mem_cons.mp listed with rfl | listed
      · exact first
      · exact rest child listed)
    (fun _ _ _ held => held) expr

theorem slotCalls_eq (slots : List (Slot Expr)) :
    slotCalls slots = slots.flatMap fun slot => slot.value.calls := by
  induction slots with
  | nil => rfl
  | cons slot rest ih =>
    obtain ⟨mark, name, value⟩ := slot
    rw [slotCalls, ih, List.flatMap_cons]

theorem childCalls_eq (children : List Expr) : childCalls children = children.flatMap calls := by
  induction children with
  | nil => rfl
  | cons child rest ih => rw [childCalls, ih, List.flatMap_cons]

theorem slotNodes_eq (kind : NodeKind) (slots : List (Slot Expr)) :
    slotNodes kind slots = slots.flatMap fun slot => ⟨kind, slot.mark⟩ :: slot.value.nodes := by
  induction slots with
  | nil => rfl
  | cons slot rest ih =>
    obtain ⟨mark, name, value⟩ := slot
    rw [slotNodes, ih, List.flatMap_cons, List.cons_append]

theorem childNodes_eq (children : List Expr) : childNodes children = children.flatMap nodes := by
  induction children with
  | nil => rfl
  | cons child rest ih => rw [childNodes, ih, List.flatMap_cons]

/-- A call stands somewhere in a tree. -/
inductive Holds (call : Call) : Expr → Prop where
  | here {outer : Mark} : Holds call (.call ⟨outer, call.mark⟩ call.callee call.arguments)
  | callee {marks : Marks} {callee : Expr} {arguments : List (Slot Expr)}
      (inside : Holds call callee) : Holds call (.call marks callee arguments)
  | argument {marks : Marks} {callee : Expr} {arguments : List (Slot Expr)} {slot : Slot Expr}
      (listed : slot ∈ arguments) (inside : Holds call slot.value) :
      Holds call (.call marks callee arguments)
  | anonymous {marks : Marks} {members : List (Slot Expr)} {slot : Slot Expr}
      (listed : slot ∈ members) (inside : Holds call slot.value) :
      Holds call (.anonymous marks members)
  | cast {marks : Marks} {typeName : String} {value : Expr} (inside : Holds call value) :
      Holds call (.cast marks typeName value)
  | lambda {marks : Marks} {parameters : List String} {body : Expr} (inside : Holds call body) :
      Holds call (.lambda marks parameters body)
  | member {marks : Marks} {left : Expr} {name : String} (inside : Holds call left) :
      Holds call (.member marks left name)
  | paren {marks : Marks} {value : Expr} (inside : Holds call value) :
      Holds call (.paren marks value)
  | other {marks : Marks} {text : String} {children : List Expr} {child : Expr}
      (listed : child ∈ children) (inside : Holds call child) :
      Holds call (.other marks text children)

/-- The expressions directly inside an expression. -/
def immediate : Expr → List Expr
  | anonymous _ members => members.map Slot.value
  | call _ callee arguments => callee :: arguments.map Slot.value
  | cast _ _ value => [value]
  | lambda _ _ body => [body]
  | member _ left _ => [left]
  | paren _ value => [value]
  | other _ _ children => children
  | identifier .. | literal .. => []

theorem Holds.of_immediate {call : Call} {expr part : Expr} (listed : part ∈ expr.immediate)
    (holds : Holds call part) : Holds call expr := by
  cases expr with
  | anonymous marks members =>
    obtain ⟨slot, given, rfl⟩ := List.mem_map.mp listed
    exact .anonymous given holds
  | call marks callee arguments =>
    rcases List.mem_cons.mp listed with rfl | listed
    · exact .callee holds
    · obtain ⟨slot, given, rfl⟩ := List.mem_map.mp listed
      exact .argument given holds
  | cast => exact .cast (List.mem_singleton.mp listed ▸ holds)
  | lambda => exact .lambda (List.mem_singleton.mp listed ▸ holds)
  | member => exact .member (List.mem_singleton.mp listed ▸ holds)
  | paren => exact .paren (List.mem_singleton.mp listed ▸ holds)
  | other => exact .other listed holds
  | identifier | literal => cases listed

/-- A call that stands in an expression is the expression itself or stands further inside. -/
theorem Holds.here_or_immediate {call : Call} {expr : Expr} (holds : Holds call expr) :
    (∃ outer, expr = .call ⟨outer, call.mark⟩ call.callee call.arguments) ∨
      ∃ part ∈ expr.immediate, Holds call part := by
  cases holds with
  | here => exact .inl ⟨_, rfl⟩
  | callee inside => exact .inr ⟨_, List.mem_cons_self, inside⟩
  | argument listed inside =>
    exact .inr ⟨_, List.mem_cons_of_mem _ (List.mem_map_of_mem listed), inside⟩
  | anonymous listed inside => exact .inr ⟨_, List.mem_map_of_mem listed, inside⟩
  | cast inside | lambda inside | member inside | paren inside =>
    exact .inr ⟨_, List.mem_cons_self, inside⟩
  | other listed inside => exact .inr ⟨_, listed, inside⟩

/-- The calls of a tree are the calls that stand in it. -/
theorem mem_calls_iff {call : Call} {expr : Expr} : call ∈ expr.calls ↔ Holds call expr := by
  constructor
  · intro listed
    induction expr with
    | anonymous marks members ih =>
      rw [calls, slotCalls_eq] at listed
      obtain ⟨slot, member, inside⟩ := List.mem_flatMap.mp listed
      exact .anonymous member (ih slot member inside)
    | call marks callee arguments ihCallee ihArguments =>
      rw [calls, slotCalls_eq] at listed
      rcases List.mem_cons.mp listed with rfl | listed
      · exact .here
      · rcases List.mem_append.mp listed with inside | listed
        · exact .callee (ihCallee inside)
        · obtain ⟨slot, member, inside⟩ := List.mem_flatMap.mp listed
          exact .argument member (ihArguments slot member inside)
    | cast marks typeName value ih => exact .cast (ih (by simpa [calls] using listed))
    | lambda marks parameters body ih => exact .lambda (ih (by simpa [calls] using listed))
    | member marks left name ih => exact .member (ih (by simpa [calls] using listed))
    | paren marks value ih => exact .paren (ih (by simpa [calls] using listed))
    | identifier | literal => simp [calls] at listed
    | other marks text children ih =>
      rw [calls, childCalls_eq] at listed
      obtain ⟨child, member, inside⟩ := List.mem_flatMap.mp listed
      exact .other member (ih child member inside)
  · intro holds
    induction holds with
    | here => exact List.mem_cons_self
    | callee _ ih =>
      rw [calls]
      exact List.mem_cons_of_mem _ (List.mem_append_left _ ih)
    | argument listed _ ih =>
      rw [calls, slotCalls_eq]
      exact List.mem_cons_of_mem _ (List.mem_append_right _ (List.mem_flatMap.mpr ⟨_, listed, ih⟩))
    | anonymous listed _ ih =>
      rw [calls, slotCalls_eq]
      exact List.mem_flatMap.mpr ⟨_, listed, ih⟩
    | cast _ ih | lambda _ ih | member _ ih | paren _ ih =>
      rw [calls]
      exact ih
    | other listed _ ih =>
      rw [calls, childCalls_eq]
      exact List.mem_flatMap.mpr ⟨_, listed, ih⟩

theorem mem_childCalls_iff {call : Call} {roots : List Expr} :
    call ∈ childCalls roots ↔ ∃ root ∈ roots, Holds call root := by
  rw [childCalls_eq, List.mem_flatMap]
  simp only [mem_calls_iff]

end QueryAudit.Expr
