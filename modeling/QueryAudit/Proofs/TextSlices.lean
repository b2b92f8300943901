import QueryAudit.Text.Offset

/-! Slices of a text. A text is cut at an offset exactly where characters of that many bytes stand
before the cut, so a slice between two offsets is what stands there between two other pieces. -/
namespace QueryAudit.Text

variable {before after chars : List Char} {text own : String}
  {start stop offset : Nat}

@[simp] theorem byteSize_nil : byteSize [] = 0 :=
  rfl

@[simp] theorem byteSize_cons (c : Char) (rest : List Char) :
    byteSize (c :: rest) = c.utf8Size + byteSize rest :=
  rfl

theorem byteSize_toList (text : String) : byteSize text.toList = text.utf8ByteSize := by
  have ofList (chars : List Char) : byteSize chars = (String.ofList chars).utf8ByteSize := by
    induction chars with
    | nil => simp
    | cons c rest ih =>
      have split : String.ofList (c :: rest) = String.singleton c ++ String.ofList rest := by
        rw [← List.singleton_append, String.ofList_append]
        rfl
      rw [byteSize_cons, ih, split, String.utf8ByteSize_append, String.utf8ByteSize_singleton]
  rw [ofList, String.ofList_toList]

/-- A cut at an offset leaves before it the characters that take up that many bytes. -/
theorem splitAt?_eq_some_iff :
    splitAt? offset chars = some (before, after) ↔
      chars = before ++ after ∧ byteSize before = offset := by
  fun_induction splitAt? offset chars generalizing before with
  | case1 chars =>
    constructor
    · intro cut
      cases cut
      exact ⟨rfl, rfl⟩
    · rintro ⟨rfl, none⟩
      cases before with
      | nil => rfl
      | cons c rest =>
        have positive := c.utf8Size_pos
        simp only [byteSize_cons] at none
        omega
  | case2 offset =>
    constructor
    · intro cut
      cases cut
    · rintro ⟨empty, size⟩
      obtain ⟨rfl, rfl⟩ := List.append_eq_nil_iff.mp empty.symm
      cases size
  | case3 offset c rest fits ih =>
    constructor
    · intro cut
      obtain ⟨⟨inner, outer⟩, split, same⟩ := Option.map_eq_some_iff.mp cut
      cases same
      obtain ⟨rfl, size⟩ := ih.mp split
      refine ⟨rfl, ?_⟩
      rw [byteSize_cons, size]
      omega
    · rintro ⟨whole, size⟩
      cases before with
      | nil => cases size
      | cons first inner =>
        obtain ⟨rfl, rfl⟩ := List.cons.inj whole
        have split := ih.mpr ⟨rfl, by rw [byteSize_cons] at size; omega⟩
        rw [split]
        rfl
  | case4 offset c rest exceeds =>
    constructor
    · intro cut
      cases cut
    · rintro ⟨whole, size⟩
      cases before with
      | nil => cases size
      | cons first inner =>
        obtain ⟨rfl, rfl⟩ := List.cons.inj whole
        rw [byteSize_cons] at size
        omega

/-- A slice is what stands between two offsets of the text. -/
theorem slice?_eq_some_iff :
    slice? text start stop = some own ↔
      ∃ before after, text = before ++ own ++ after ∧ before.utf8ByteSize = start ∧
        start + own.utf8ByteSize = stop := by
  constructor
  · intro sliced
    simp only [slice?] at sliced
    split at sliced
    · next ordered =>
      obtain ⟨⟨before, rest⟩, first, sliced⟩ := Option.bind_eq_some_iff.mp sliced
      obtain ⟨⟨inside, after⟩, second, made⟩ := Option.bind_eq_some_iff.mp sliced
      cases made
      obtain ⟨whole, beforeSize⟩ := splitAt?_eq_some_iff.mp first
      obtain ⟨rfl, insideSize⟩ := splitAt?_eq_some_iff.mp second
      refine ⟨.ofList before, .ofList after, ?_, ?_, ?_⟩
      · rw [← String.ofList_append, ← String.ofList_append, List.append_assoc, ← whole,
          String.ofList_toList]
      · rw [← byteSize_toList, String.toList_ofList, beforeSize]
      · rw [← byteSize_toList, String.toList_ofList, insideSize]
        omega
    · cases sliced
  · rintro ⟨before, after, rfl, rfl, rfl⟩
    have first : splitAt? before.utf8ByteSize (before ++ own ++ after).toList =
        some (before.toList, own.toList ++ after.toList) := by
      refine splitAt?_eq_some_iff.mpr ⟨?_, byteSize_toList before⟩
      rw [String.toList_append, String.toList_append, List.append_assoc]
    have second : splitAt? own.utf8ByteSize (own.toList ++ after.toList) =
        some (own.toList, after.toList) :=
      splitAt?_eq_some_iff.mpr ⟨rfl, byteSize_toList own⟩
    have ordered : before.utf8ByteSize ≤ before.utf8ByteSize + own.utf8ByteSize :=
      Nat.le_add_right _ _
    simp only [slice?, ordered, ↓reduceIte, first, Nat.add_sub_cancel_left, Option.bind_eq_bind,
      Option.bind_some, second, String.ofList_toList]
    rfl

/-- A text stands in another one, from an offset on. -/
def Stands (text : String) (offset : Nat) (own : String) : Prop :=
  slice? text offset (offset + own.utf8ByteSize) = some own

theorem stands_between (before own after : String) :
    Stands (before ++ own ++ after) before.utf8ByteSize own :=
  slice?_eq_some_iff.mpr ⟨before, after, rfl, rfl, rfl⟩

theorem stands_before (own after : String) : Stands (own ++ after) 0 own := by
  have between := stands_between "" own after
  rwa [String.empty_append, String.utf8ByteSize_empty] at between

theorem stands_after (before own : String) : Stands (before ++ own) before.utf8ByteSize own := by
  have between := stands_between before own ""
  rwa [String.append_empty] at between

theorem stands_self (text : String) : Stands text 0 text := by
  have before := stands_before text ""
  rwa [String.append_empty] at before

/-- What stands in a part of a text stands in the text, counted from where the part starts. -/
theorem Stands.trans {whole : String} (outer : Stands text start whole)
    (inner : Stands whole offset own) : Stands text (start + offset) own := by
  obtain ⟨before, after, rfl, rfl, _⟩ := slice?_eq_some_iff.mp outer
  obtain ⟨lead, trail, rfl, rfl, _⟩ := slice?_eq_some_iff.mp inner
  refine slice?_eq_some_iff.mpr ⟨before ++ lead, trail ++ after, ?_, ?_, rfl⟩
  · simp only [String.append_assoc]
  · rw [String.utf8ByteSize_append]

end QueryAudit.Text
