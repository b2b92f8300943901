import QueryAudit.Tree.Print

/-! String literals in printed text. A literal can be told from the text that starts with it, and so
can the text behind it: no run of backslashes, no quote and no line break inside a string lets its
literal end elsewhere than at its own closing quote. -/
namespace QueryAudit.Literal

variable {chars behind rest : List Char} {position : Nat} {c : Char}

/-! ## Escapes in a text -/

/-- A text that does not end inside an escape. An escape is a backslash with the character behind
it. -/
inductive Whole : List Char → Prop where
  | nothing : Whole []
  | escape {c : Char} {rest : List Char} (whole : Whole rest) : Whole ('\\' :: c :: rest)
  | plain {c : Char} {rest : List Char} (own : c ≠ '\\') (whole : Whole rest) : Whole (c :: rest)

/-- At a position stands a quote that is not part of an escape. -/
def BareQuote (chars : List Char) (position : Nat) : Prop :=
  chars[position]? = some '"' ∧ Whole (chars.take position)

/-- A text starts with a quote, and the next one that is not part of an escape is at a position. -/
structure ClosesAt (chars : List Char) (position : Nat) : Prop where
  opened : BareQuote chars 0
  later : 0 < position
  closed : BareQuote chars position
  first : ∀ other, 0 < other → other < position → ¬ BareQuote chars other

theorem whole_escape_iff : Whole ('\\' :: c :: rest) ↔ Whole rest := by
  constructor
  · intro whole
    cases whole with
    | escape whole => exact whole
    | plain own => exact absurd rfl own
  · exact .escape

theorem whole_plain_iff (own : c ≠ '\\') : Whole (c :: rest) ↔ Whole rest := by
  constructor
  · intro whole
    cases whole with
    | escape => exact absurd rfl own
    | plain _ whole => exact whole
  · exact .plain own

theorem not_whole_backslash : ¬ Whole ['\\'] := by
  intro whole
  cases whole with
  | plain own => exact own rfl

theorem bareQuote_escape_iff :
    BareQuote ('\\' :: c :: rest) (position + 2) ↔ BareQuote rest position := by
  simp only [BareQuote, List.getElem?_cons_succ, List.take_succ_cons, whole_escape_iff]

theorem bareQuote_plain_iff (own : c ≠ '\\') :
    BareQuote (c :: rest) (position + 1) ↔ BareQuote rest position := by
  simp only [BareQuote, List.getElem?_cons_succ, List.take_succ_cons, whole_plain_iff own]

theorem not_bareQuote_of_escape (inside : position < 2) :
    ¬ BareQuote ('\\' :: c :: rest) position := by
  rintro ⟨isQuote, whole⟩
  match position, inside with
  | 0, _ => simp at isQuote
  | 1, _ => exact not_whole_backslash whole

/-! ## What stands for a character -/

/-- The character that an escape stands for. -/
def unescape? : Char → Option Char
  | '"' => some '"'
  | '\\' => some '\\'
  | 'n' => some '\n'
  | _ => none

/-- A character is written as an escape, or it stands for itself and is none of those that could be
mistaken. -/
theorem escape_cases (c : Char) :
    (∃ letter, escape c = ['\\', letter] ∧ letter ≠ '\n' ∧ unescape? letter = some c) ∨
      escape c = [c] ∧ c ≠ '"' ∧ c ≠ '\\' ∧ c ≠ '\n' := by
  unfold escape
  split
  · exact .inl ⟨'"', rfl, by decide, rfl⟩
  · exact .inl ⟨'\\', rfl, by decide, rfl⟩
  · exact .inl ⟨'n', rfl, by decide, rfl⟩
  · next quote backslash newline => exact .inr ⟨rfl, quote, backslash, newline⟩

/-- The string up to the closing quote, and the text behind it. -/
def body? : List Char → Option (List Char × List Char)
  | [] => none
  | '"' :: behind => some ([], behind)
  | ['\\'] => none
  | '\\' :: letter :: rest => do
    let c ← unescape? letter
    let (text, behind) ← body? rest
    return (c :: text, behind)
  | c :: rest => do
    let (text, behind) ← body? rest
    return (c :: text, behind)

theorem body?_escaped (text behind : List Char) :
    body? (text.flatMap escape ++ '"' :: behind) = some (text, behind) := by
  induction text with
  | nil => rfl
  | cons c rest ih =>
    rw [List.flatMap_cons, List.append_assoc]
    obtain ⟨letter, written, _, read⟩ | ⟨written, _, backslash, _⟩ := escape_cases c
    · simp [written, body?, read, ih]
    · simp [written, body?, backslash, ih]

/-! ## The characters of a literal -/

theorem newline_not_mem_escape (c : Char) : '\n' ∉ escape c := by
  intro isNewline
  obtain ⟨letter, written, own, _⟩ | ⟨written, _, _, own⟩ := escape_cases c
  · simp [written, Ne.symm own] at isNewline
  · simp [written, Ne.symm own] at isNewline

theorem whole_escaped (text : List Char) : Whole (text.flatMap escape) := by
  induction text with
  | nil => exact .nothing
  | cons c rest ih =>
    rw [List.flatMap_cons]
    obtain ⟨letter, written, _, _⟩ | ⟨written, _, own, _⟩ := escape_cases c
    · rw [written]
      exact .escape ih
    · rw [written]
      exact .plain own ih

/-- Every quote of a string is part of an escape. -/
theorem not_bareQuote_escaped {text : List Char}
    (inside : position < (text.flatMap escape).length) :
    ¬ BareQuote (text.flatMap escape ++ behind) position := by
  induction text generalizing position with
  | nil => simp at inside
  | cons c rest ih =>
    rw [List.flatMap_cons] at inside ⊢
    obtain ⟨letter, written, _, _⟩ | ⟨written, quote, backslash, _⟩ := escape_cases c
    · rw [written] at inside ⊢
      match position with
      | 0 | 1 => exact not_bareQuote_of_escape (by decide)
      | position + 2 =>
        exact fun bare => ih (by simpa using inside) (bareQuote_escape_iff.mp bare)
    · rw [written] at inside ⊢
      match position with
      | 0 => simp [BareQuote, quote]
      | position + 1 =>
        exact fun bare => ih (by simpa using inside) ((bareQuote_plain_iff backslash).mp bare)

theorem closesAt_quoted (text behind : List Char) :
    ClosesAt (quoted text ++ behind) ((text.flatMap escape).length + 1) := by
  have plain : '"' ≠ '\\' := by decide
  have shape : quoted text ++ behind = '"' :: (text.flatMap escape ++ '"' :: behind) := by
    simp [quoted]
  rw [shape]
  refine ⟨⟨rfl, .nothing⟩, Nat.succ_pos _, ?_, ?_⟩
  · rw [bareQuote_plain_iff plain]
    refine ⟨by simp, ?_⟩
    rw [List.take_left]
    exact whole_escaped text
  · intro other later earlier bare
    match other with
    | other + 1 =>
      exact not_bareQuote_escaped (Nat.lt_of_succ_lt_succ earlier)
        ((bareQuote_plain_iff plain).mp bare)

theorem toList_print_string (text : String) : (string text).print.toList = quoted text.toList :=
  String.toList_ofList

/-- A printed string literal tells its string and where it ends, whatever text it stands in front
of. It has no line break, and its last character is the first quote after the opening one that is
not part of an escape. -/
theorem print_string_decodable :
    (∀ text other behind after : String,
      (string text).print ++ behind = (string other).print ++ after ↔
        text = other ∧ behind = after) ∧
    (∀ text : String, '\n' ∉ (string text).print.toList) ∧
    ∀ text behind : String,
      ClosesAt ((string text).print ++ behind).toList ((string text).print.length - 1) := by
  refine ⟨?_, ?_, ?_⟩
  · intro text other behind after
    refine ⟨fun same => ?_, by rintro ⟨rfl, rfl⟩; rfl⟩
    have chars : quoted text.toList ++ behind.toList = quoted other.toList ++ after.toList := by
      simpa only [String.toList_append, toList_print_string] using congrArg String.toList same
    have inside : text.toList.flatMap escape ++ '"' :: behind.toList =
        other.toList.flatMap escape ++ '"' :: after.toList := by
      simpa [quoted] using chars
    have read := congrArg body? inside
    rw [body?_escaped, body?_escaped, Option.some.injEq, Prod.mk.injEq] at read
    exact ⟨String.toList_inj.mp read.1, String.toList_inj.mp read.2⟩
  · intro text
    rw [toList_print_string]
    simp [quoted, newline_not_mem_escape]
  · intro text behind
    have size : (string text).print.length - 1 = (text.toList.flatMap escape).length + 1 := by
      rw [← String.length_toList, toList_print_string]
      simp [quoted]
    rw [size, String.toList_append, toList_print_string]
    exact closesAt_quoted text.toList behind.toList

end QueryAudit.Literal
