/-! Sets of names. A set is the list of its names in ascending order, so equal sets are equal
lists. Names are ordered by code point, which for UTF-8 is the order of bytes. -/
namespace QueryAudit

/-- Adds a name to an ascending list. -/
def insertName (name : String) : List String → List String
  | [] => [name]
  | head :: rest =>
    if name < head then name :: head :: rest
    else if name = head then head :: rest
    else head :: insertName name rest

theorem mem_insertName {name other : String} {names : List String} :
    other ∈ insertName name names ↔ other = name ∨ other ∈ names := by
  induction names with
  | nil => simp [insertName]
  | cons head rest ih =>
    simp only [insertName]
    split
    · simp
    · split
      · next same => subst same; simp
      · simp only [List.mem_cons, ih]
        constructor
        · rintro (rfl | rfl | member) <;> simp_all
        · rintro (rfl | rfl | member) <;> simp_all

theorem insertName_ascending {name : String} {names : List String}
    (ascending : names.Pairwise (· < ·)) : (insertName name names).Pairwise (· < ·) := by
  induction names with
  | nil => simp [insertName]
  | cons head rest ih =>
    obtain ⟨above, tail⟩ := List.pairwise_cons.mp ascending
    simp only [insertName]
    split
    · next before =>
      refine List.pairwise_cons.mpr ⟨fun other member => ?_, ascending⟩
      rcases List.mem_cons.mp member with rfl | member
      · exact before
      · exact String.lt_trans before (above other member)
    · split
      · exact ascending
      · next notBefore different =>
        refine List.pairwise_cons.mpr ⟨fun other member => ?_, ih tail⟩
        rcases mem_insertName.mp member with rfl | member
        · rcases Decidable.em (head < other) with after | notAfter
          · exact after
          · exact absurd (String.le_antisymm (String.not_lt.mp notAfter) (String.not_lt.mp notBefore))
              different
        · exact above other member

/-- A finite set of names. -/
structure Names where
  toList : List String
  ascending : toList.Pairwise (· < ·)
  deriving DecidableEq

namespace Names

def empty : Names :=
  ⟨[], .nil⟩

def insert (names : Names) (name : String) : Names :=
  ⟨insertName name names.toList, insertName_ascending names.ascending⟩

/-- The set of the names in a list, in any order and any number. -/
def ofList (names : List String) : Names :=
  names.foldl insert empty

def contains (names : Names) (name : String) : Bool :=
  names.toList.contains name

def isEmpty (names : Names) : Bool :=
  names.toList.isEmpty

end Names
end QueryAudit
