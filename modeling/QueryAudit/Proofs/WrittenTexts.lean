import Mathlib.Data.List.TakeDrop
import Mathlib.Data.List.TakeWhile
import Mathlib.Data.Nat.Cast.Order.Basic
import Mathlib.Data.Option.Basic
import Mathlib.Tactic.IntervalCases
import QueryAudit.Json.Reader
import QueryAudit.Json.Writer

/-! JSON on one line is read back. Each of the reader's stages is followed on the text of a value:
its characters are the tokens of an outline, wherever they stand, and the outline has the value. The
values are those whose numbers are natural and fit 64 bits, and whose brackets are not nested too
deep to be read. -/
namespace QueryAudit

/-! ## Characters to tokens -/

namespace JsonToken

variable {chars others : List Char} {tokens later done : List JsonToken} {c : Char}
  {token : JsonToken} {progress : Progress}

/-- The tokens so far, last first, when no string is open: a word ends where it is left off. -/
def Progress.settle? : Progress → Option (List JsonToken)
  | ⟨.between, done⟩ => some done
  | ⟨.word taken, done⟩ => some (word taken.reverse :: done)
  | _ => none

theorem ofChars?_eq (chars : List Char) :
    ofChars? chars = ((chars.foldlM step {} >>= Progress.settle?).map List.reverse) := by
  unfold ofChars?
  cases chars.foldlM step {} with
  | none => rfl
  | some progress =>
    obtain ⟨reading, done⟩ := progress
    cases reading <;> rfl

/-- Read after any other tokens, a text gives these tokens, of which the last may still be open to
more characters. -/
def Reads (chars : List Char) (tokens : List JsonToken) : Prop :=
  ∀ done, ∃ progress, chars.foldlM step ⟨.between, done⟩ = some progress ∧
    progress.settle? = some (tokens.reverse ++ done)

/-- A text gives these tokens, of which the last is complete. -/
def ReadsWhole (chars : List Char) (tokens : List JsonToken) : Prop :=
  ∀ done, chars.foldlM step ⟨.between, done⟩ = some ⟨.between, tokens.reverse ++ done⟩

theorem step_mark (settled : progress.settle? = some done) (isMark : mark? c = some token) :
    step progress c = some ⟨.between, token :: done⟩ := by
  have outsideMark (tokens : List JsonToken) : outside tokens c = ⟨.between, token :: tokens⟩ := by
    unfold mark? at isMark
    split at isMark <;> cases isMark <;> rfl
  obtain ⟨reading, tokens⟩ := progress
  cases reading with
  | between =>
    cases settled
    simp [step, outsideMark]
  | word taken =>
    cases settled
    simp [step, isMark, outsideMark]
  | text | escape | code => cases settled

theorem ReadsWhole.nothing : ReadsWhole [] [] := fun _ => rfl

theorem ReadsWhole.reads (whole : ReadsWhole chars tokens) : Reads chars tokens :=
  fun done => ⟨_, whole done, rfl⟩

theorem Reads.mark (reads : Reads chars tokens) (isMark : mark? c = some token) :
    ReadsWhole (chars ++ [c]) (tokens ++ [token]) := by
  intro done
  obtain ⟨progress, read, settled⟩ := reads done
  simp [List.foldlM_append, read, step_mark settled isMark]

theorem ReadsWhole.append (whole : ReadsWhole chars tokens) (reads : Reads others later) :
    Reads (chars ++ others) (tokens ++ later) := by
  intro done
  obtain ⟨progress, read, settled⟩ := reads (tokens.reverse ++ done)
  refine ⟨progress, ?_, by simp [settled]⟩
  simp [List.foldlM_append, whole done, read]

theorem Reads.ofChars? (reads : Reads chars tokens) : ofChars? chars = some tokens := by
  obtain ⟨progress, read, settled⟩ := reads []
  simp [ofChars?_eq, read, settled]

/-- Texts that are divided by commas. -/
theorem Reads.intercalate {texts : List (List Char)} {groups : List (List JsonToken)}
    (each : List.Forall₂ Reads texts groups) :
    Reads ([','].intercalate texts) ([comma].intercalate groups) := by
  induction each with
  | nil => exact ReadsWhole.nothing.reads
  | @cons text group texts groups first rest ih =>
    cases rest with
    | nil => simpa using first
    | cons second rest =>
      rw [List.intercalate_cons_cons, List.intercalate_cons_cons]
      exact (first.mark rfl).append ih

/-- A character that is part of a word wherever it stands outside of strings. -/
def IsWordChar (c : Char) : Prop :=
  isBlank c = false ∧ c ≠ '"' ∧ mark? c = none

theorem reads_word (first : IsWordChar c) (rest : ∀ other ∈ chars, IsWordChar other) :
    Reads (c :: chars) [word (c :: chars)] := by
  intro done
  have further (taken : List Char) : chars.foldlM step ⟨.word taken, done⟩ =
      some ⟨.word (chars.reverse ++ taken), done⟩ := by
    induction chars generalizing taken with
    | nil => rfl
    | cons next chars ih =>
      rw [List.forall_mem_cons] at rest
      obtain ⟨blank, quote, mark⟩ := rest.1
      simp [step, blank, quote, mark, ih rest.2]
  obtain ⟨blank, quote, mark⟩ := first
  refine ⟨⟨.word (chars.reverse ++ [c]), done⟩, ?_, by simp [Progress.settle?]⟩
  simp [step, outside, blank, quote, mark, further]

end JsonToken

/-! ## Strings -/

namespace Json

open JsonToken

theorem joinPieces_code {unit : Nat} (low : unit < 0xD800) (rest : List JsonPiece) :
    joinPieces (.code unit :: rest) = (joinPieces rest).map (Char.ofNat unit :: ·) := by
  have single : ¬ (0xD800 ≤ unit ∧ unit < 0xE000) := by omega
  have double (other : Nat) :
      ¬ (0xD800 ≤ unit ∧ unit < 0xDC00 ∧ 0xDC00 ≤ other ∧ other < 0xE000) := by omega
  cases rest with
  | nil => simp only [joinPieces, single, ↓reduceIte]
  | cons next rest =>
    cases next with
    | char => simp only [joinPieces, single, ↓reduceIte]
    | code other =>
      simp only [joinPieces, single, double, ↓reduceIte]

/-- A control character is written by four hexadecimal digits. -/
theorem toList_hex {value : Nat} (small : value < 32) :
    (hex 4 value).toList = ['0', '0', (value / 16).digitChar, (value % 16).digitChar] := by
  revert value
  decide

theorem hexDigit?_digitChar {digit : Nat} (small : digit < 16) :
    hexDigit? digit.digitChar = some digit := by
  revert digit
  decide

/-- What is written for a character is read as one piece, which stands for the character. -/
theorem exists_piece (c : Char) :
    ∃ piece : JsonPiece, (∀ taken done, (escapeChar c).toList.foldlM step ⟨.text taken, done⟩ =
      some ⟨.text (piece :: taken), done⟩) ∧
      ∀ rest, joinPieces (piece :: rest) = (joinPieces rest).map (c :: ·) := by
  unfold escapeChar
  split
  · exact ⟨.char '"', fun _ _ => rfl, fun _ => rfl⟩
  · exact ⟨.char '\\', fun _ _ => rfl, fun _ => rfl⟩
  · exact ⟨.char '\n', fun _ _ => rfl, fun _ => rfl⟩
  · exact ⟨.char '\r', fun _ _ => rfl, fun _ => rfl⟩
  · exact ⟨.char '\t', fun _ _ => rfl, fun _ => rfl⟩
  · exact ⟨.char '\x08', fun _ _ => rfl, fun _ => rfl⟩
  · exact ⟨.char '\x0c', fun _ _ => rfl, fun _ => rfl⟩
  · next quote backslash _ _ _ _ _ =>
    split
    · next control =>
      have small : c.toNat < 32 := control
      refine ⟨.code c.toNat, ?_, ?_⟩
      · intro taken done
        have high := hexDigit?_digitChar (show c.toNat / 16 < 16 by omega)
        have low := hexDigit?_digitChar (show c.toNat % 16 < 16 by omega)
        have whole : c.toNat / 16 * 16 + c.toNat % 16 = c.toNat := by omega
        have zero : hexDigit? '0' = some 0 := rfl
        simp [toList_hex small, step, high, low, zero, whole]
      · intro rest
        rw [joinPieces_code (by omega), Char.ofNat_toNat]
    · next visible =>
      have notQuote : c ≠ '"' := quote
      have notBackslash : c ≠ '\\' := backslash
      refine ⟨.char c, ?_, fun _ => rfl⟩
      intro taken done
      simp [step, notQuote, notBackslash, visible]

theorem toList_quoted (text : String) :
    (quoted text).toList =
      '"' :: (text.toList.flatMap fun c => (escapeChar c).toList) ++ ['"'] := by
  have gathered (chars : List Char) (start : String) :
      (chars.foldl (fun done c => done ++ escapeChar c) start).toList =
        start.toList ++ chars.flatMap fun c => (escapeChar c).toList := by
    induction chars generalizing start with
    | nil => simp
    | cons c rest ih => simp [ih]
  simp [quoted, String.foldl_eq_foldl_toList, gathered]

/-- A string is read as one token that stands for it. -/
theorem exists_pieces (text : String) :
    ∃ pieces, ReadsWhole (quoted text).toList [.text pieces] ∧ text? pieces = some text := by
  have inside (chars : List Char) : ∃ pieces : List JsonPiece,
      (∀ taken done,
        (chars.flatMap fun c => (escapeChar c).toList).foldlM step ⟨.text taken, done⟩ =
          some ⟨.text (pieces.reverse ++ taken), done⟩) ∧
        joinPieces pieces = some chars := by
    induction chars with
    | nil => exact ⟨[], fun _ _ => rfl, rfl⟩
    | cons c rest ih =>
      obtain ⟨piece, read, joined⟩ := exists_piece c
      obtain ⟨pieces, readRest, joinedRest⟩ := ih
      refine ⟨piece :: pieces, ?_, by rw [joined, joinedRest, Option.map_some]⟩
      intro taken done
      simp [List.foldlM_append, read, readRest]
  obtain ⟨pieces, read, joined⟩ := inside text.toList
  refine ⟨pieces, ?_, by rw [text?, joined, Option.map_some, String.ofList_toList]⟩
  intro done
  rw [toList_quoted]
  have opened : step ⟨.between, done⟩ '"' = some ⟨.text [], done⟩ := rfl
  have closed : step ⟨.text (pieces.reverse ++ []), done⟩ '"' =
      some ⟨.between, .text pieces :: done⟩ := by
    simp [step]
  simpa [List.foldlM_append, opened, read] using closed

end Json

/-! ## Tokens to outlines -/

namespace JsonOutline

open JsonToken (comma colon)

variable {tokens : List JsonToken} {outline : JsonOutline} {levels : Nat}

/-- Wherever a value may stand, these tokens are one. -/
def Parses (tokens : List JsonToken) (outline : JsonOutline) : Prop :=
  ∀ frames awaiting, awaiting = .value ∨ awaiting = .firstItem →
    tokens.foldlM step { frames, awaiting } = some (place outline frames)

theorem Parses.ofText? {text : String} (reads : JsonToken.Reads text.toList tokens)
    (parses : Parses tokens outline) : ofText? text = some outline := by
  have parsed : tokens.foldlM step {} = some (place outline []) := parses [] .value (.inl rfl)
  simp [JsonOutline.ofText?, reads.ofChars?, parsed, place]

theorem parses_text (pieces : List JsonPiece) : Parses [.text pieces] (.text pieces) := by
  rintro frames _ (rfl | rfl) <;> rfl

theorem parses_word {chars : List Char} (meant : ofWord? chars = some outline) :
    Parses [.word chars] outline := by
  rintro frames _ (rfl | rfl) <;> simp [step, begin?, meant]

/-- Members that are divided by commas, with the state before and behind a member given by those so
far, last first. -/
theorem foldlM_members {β : Type} {parses : List JsonToken → β → Prop}
    (ready behind : List β → Progress)
    (one : ∀ group member done, parses group member →
      group.foldlM step (ready done) = some (behind (member :: done)))
    (next : ∀ member done, step (behind (member :: done)) comma = some (ready (member :: done)))
    {groups : List (List JsonToken)} {members : List β} (each : List.Forall₂ parses groups members)
    (present : members ≠ []) (done : List β) :
    ([comma].intercalate groups).foldlM step (ready done) =
      some (behind (members.reverse ++ done)) := by
  induction each generalizing done with
  | nil => exact absurd rfl present
  | @cons group member groups members first rest ih =>
    have placed := one group member done first
    cases rest with
    | nil => simpa using placed
    | cons second rest =>
      have later := ih (by simp) (member :: done)
      rw [List.intercalate_cons_cons, List.append_assoc, List.foldlM_append, placed]
      simpa [next] using later

theorem Parses.array {groups : List (List JsonToken)} {items : List JsonOutline}
    (each : List.Forall₂ Parses groups items) :
    Parses (.openBracket :: ([comma].intercalate groups ++ [.closeBracket])) (.array items) := by
  rintro frames awaiting started
  have opened : step { frames, awaiting } .openBracket =
      some { frames := .array [] :: frames, awaiting := .firstItem } := by
    rcases started with rfl | rfl <;> rfl
  rw [List.foldlM_cons, opened]
  by_cases empty : items = []
  · subst empty
    cases each
    rfl
  · have inside : ([comma].intercalate groups).foldlM step
        { frames := .array [] :: frames, awaiting := .firstItem } =
          some { frames := .array items.reverse :: frames, awaiting := .separator } := by
      simpa using foldlM_members
        (fun done => { frames := .array done :: frames
                       awaiting := if done.isEmpty then .firstItem else .value })
        (fun done => { frames := .array done :: frames, awaiting := .separator })
        (fun group item done parses => parses (.array done :: frames) _ (by cases done <;> simp))
        (fun _ _ => rfl) each empty []
    simp [List.foldlM_append, inside, step, close?]

/-- The tokens of a field, the key of which is followed by a colon. -/
def ParsesField (tokens : List JsonToken) (field : List JsonPiece × JsonOutline) : Prop :=
  ∃ group, tokens = .text field.1 :: .colon :: group ∧ Parses group field.2

theorem Parses.object {groups : List (List JsonToken)}
    {fields : List (List JsonPiece × JsonOutline)} (each : List.Forall₂ ParsesField groups fields) :
    Parses (.openBrace :: ([comma].intercalate groups ++ [.closeBrace])) (.object fields) := by
  rintro frames awaiting started
  have opened : step { frames, awaiting } .openBrace =
      some { frames := .object [] [] :: frames, awaiting := .firstKey } := by
    rcases started with rfl | rfl <;> rfl
  rw [List.foldlM_cons, opened]
  by_cases empty : fields = []
  · subst empty
    cases each
    rfl
  · have one (tokens : List JsonToken) (field : List JsonPiece × JsonOutline)
        (done : List (List JsonPiece × JsonOutline)) (parses : ParsesField tokens field) :
        tokens.foldlM step { frames := .object done [] :: frames
                             awaiting := if done.isEmpty then .firstKey else .key } =
          some { frames := .object (field :: done) [] :: frames, awaiting := .separator } := by
      obtain ⟨group, rfl, parses⟩ := parses
      have placed := parses (.object done field.1 :: frames) .value (.inl rfl)
      cases done <;> exact placed
    have inside : ([comma].intercalate groups).foldlM step
        { frames := .object [] [] :: frames, awaiting := .firstKey } =
          some { frames := .object fields.reverse [] :: frames, awaiting := .separator } := by
      simpa using foldlM_members _ (fun done =>
        { frames := .object done [] :: frames, awaiting := .separator }) one (fun _ _ => rfl) each
        empty []
    simp [List.foldlM_append, inside, step, close?]

end JsonOutline

/-! ## Natural numbers -/

theorem JsonToken.isWordChar_of_isDigit {c : Char} (digit : c.isDigit) : IsWordChar c := by
  refine ⟨?_, ?_, ?_⟩
  · rw [Bool.eq_false_iff]
    intro blank
    simp only [isBlank, Bool.or_eq_true, beq_iff_eq] at blank
    rcases blank with ((rfl | rfl) | rfl) | rfl <;> simp at digit
  · rintro rfl
    simp at digit
  · unfold mark?
    split
    case h_7 => rfl
    all_goals simp at digit

namespace Numeral

open Nat (toDigits ofDigitChars)

/-- Only zero is written with a zero in front. -/
theorem toDigits_head_ne_zero {value : Nat} (positive : 0 < value) (rest : List Char) :
    toDigits 10 value ≠ '0' :: rest := by
  induction value using Nat.strongRecOn generalizing rest with
  | ind value ih =>
    rw [Nat.toDigits_eq_if (by decide)]
    split
    · next small =>
      intro same
      have digit : value.digitChar = '0' := (List.cons.inj same).1
      revert digit
      interval_cases value <;> decide
    · next large =>
      intro same
      cases front : toDigits 10 (value / 10) with
      | nil => exact Nat.toDigits_ne_nil front
      | cons first others =>
        rw [front, List.cons_append] at same
        refine ih (value / 10) (by omega) (by omega) others ?_
        rw [front, (List.cons.inj same).1]

theorem whole?_toDigits (value : Nat) :
    whole? (toDigits 10 value) = some (toDigits 10 value, []) := by
  have digits {c : Char} (present : c ∈ toDigits 10 value) : c.isDigit :=
    Nat.isDigit_of_mem_toDigits (by decide) (by decide) present
  have spanned : (toDigits 10 value).span Char.isDigit = (toDigits 10 value, []) := by
    rw [List.span_eq_takeWhile_dropWhile, List.takeWhile_eq_self_iff.2 fun _ => digits,
      List.dropWhile_eq_nil_iff.2 fun _ => digits]
  have found : digits? (toDigits 10 value) = some (toDigits 10 value, []) := by
    unfold digits?
    rw [spanned]
    cases present : toDigits 10 value with
    | nil => exact absurd present Nat.toDigits_ne_nil
    | cons => rfl
  unfold whole?
  rw [found]
  split
  · next first rest others same =>
    have front : toDigits 10 value = '0' :: first :: rest := by simp_all
    rcases Nat.eq_zero_or_pos value with rfl | positive
    · cases front
    · exact absurd front (toDigits_head_ne_zero positive _)
  · rfl

theorem le_ofDigitChars (chars : List Char) (start : Nat) :
    start ≤ ofDigitChars 10 chars start := by
  rw [Nat.ofDigitChars_eq_ofDigitChars_zero]
  exact (Nat.le_mul_of_pos_left start (Nat.pow_pos (by decide))).trans (Nat.le_add_right _ _)

/-- No digit is left out of a number that fits 64 bits. -/
theorem gather_eq {chars : List Char} {start : Nat} (fits : ofDigitChars 10 chars start < 2 ^ 64) :
    gather start chars = (ofDigitChars 10 chars start, 0) := by
  induction chars generalizing start with
  | nil => simp [gather]
  | cons c rest ih =>
    rw [Nat.ofDigitChars_cons, Nat.mul_comm] at fits ⊢
    have next : start * 10 + (c.toNat - '0'.toNat) < 1 <<< 64 :=
      lt_of_le_of_lt (le_ofDigitChars rest _) fits
    simp only [gather, next, ↓reduceIte]
    exact ih fits

/-- A natural number of at most 64 bits is the value of its digits. -/
theorem exists_numeral {value : Nat} (fits : value < 2 ^ 64) :
    ∃ numeral, ofChars? (toDigits 10 value) = some numeral ∧
      numeral.value? = some (.natural value) := by
  refine ⟨⟨false, toDigits 10 value, [], none⟩, ?_, ?_⟩
  · unfold ofChars?
    split
    next signed =>
    split at signed
    · next rest shape =>
      have minus : '-' ∈ toDigits 10 value := by simp [shape]
      exact absurd (Nat.isDigit_of_mem_toDigits (by decide) (by decide) minus) (by decide)
    · cases signed
      simp [whole?_toDigits, fraction?, exponent?]
  · have gathered : gather 0 (toDigits 10 value) = (value, 0) := by
      rw [gather_eq (by rwa [Nat.ofDigitChars_ten_toDigits]), Nat.ofDigitChars_ten_toDigits]
    simp [value?, integer?, gathered]

end Numeral

theorem JsonOutline.ofWord?_toDigits {value : Nat} {numeral : Numeral}
    (written : Numeral.ofChars? (Nat.toDigits 10 value) = some numeral) :
    ofWord? (Nat.toDigits 10 value) = some (.number numeral) := by
  have other {word : List Char} {c : Char} (first : c ∈ word) (letter : c.isDigit = false) :
      Nat.toDigits 10 value ≠ word := by
    rintro rfl
    simp [Nat.isDigit_of_mem_toDigits (by decide) (by decide) first] at letter
  rw [ofWord?, if_neg (other (show 'n' ∈ "null".toList by decide) rfl),
    if_neg (other (show 't' ∈ "true".toList by decide) rfl),
    if_neg (other (show 'f' ∈ "false".toList by decide) rfl), written, Option.map_some]

/-! ## Values -/

namespace Json

open JsonToken (Reads ReadsWhole IsWordChar)
open JsonOutline (Parses ParsesField)

variable {levels : Nat} {value : Json}

/-- At most `levels` brackets stand inside one another, and every number is a natural number of at
most 64 bits. -/
def Plain : (levels : Nat) → Json → Prop
  | _, null | _, bool _ | _, string _ => True
  | _, number value => ∃ natural < 2 ^ 64, value = .natural natural
  | 0, array _ | 0, object _ => False
  | levels + 1, array items => ∀ item ∈ items, Plain levels item
  | levels + 1, object fields => ∀ field ∈ fields, Plain levels field.2

/-- A text has the tokens of an outline of the value. -/
def Spells (levels : Nat) (chars : List Char) (value : Json) : Prop :=
  ∃ tokens outline, Reads chars tokens ∧ Parses tokens outline ∧
    ofOutline? levels outline = some value

theorem Spells.read? {text : String} (spells : Spells nestingLimit text.toList value) :
    read? text = some value := by
  obtain ⟨tokens, outline, reads, parses, meant⟩ := spells
  rw [Json.read?, parses.ofText? reads]
  exact meant

theorem compactItems_eq_map (items : List Json) : compactItems items = items.map compact := by
  induction items with
  | nil => rfl
  | cons item rest ih => rw [compactItems, ih, List.map_cons]

theorem compactFields_eq_map (fields : List (String × Json)) :
    compactFields fields = fields.map fun field => quoted field.1 ++ ":" ++ field.2.compact := by
  induction fields with
  | nil => rfl
  | cons field rest ih => rw [compactFields, ih, List.map_cons]

theorem spells_string (text : String) :
    Spells levels (compact (string text)).toList (string text) := by
  obtain ⟨pieces, read, joined⟩ := exists_pieces text
  refine ⟨_, _, ?_, JsonOutline.parses_text pieces, by simp [ofOutline?, joined]⟩
  rw [compact]
  exact read.reads

theorem spells_word {chars : List Char} {outline : JsonOutline}
    (letters : ∀ c ∈ chars, IsWordChar c) (meant : JsonOutline.ofWord? chars = some outline)
    (valued : ofOutline? levels outline = some value) : Spells levels chars value := by
  cases chars with
  | nil => cases meant
  | cons c rest =>
    rw [List.forall_mem_cons] at letters
    exact ⟨_, outline, JsonToken.reads_word letters.1 letters.2, JsonOutline.parses_word meant,
      valued⟩

theorem spells_null : Spells levels (compact null).toList null := by
  have meant : JsonOutline.ofWord? "null".toList = some .null := by simp [JsonOutline.ofWord?]
  rw [compact]
  refine spells_word ?_ meant (by rw [ofOutline?])
  simp [IsWordChar, JsonToken.isBlank, JsonToken.mark?]

theorem spells_bool (truth : Bool) : Spells levels (compact (bool truth)).toList (bool truth) := by
  have meant : JsonOutline.ofWord? (if truth then "true" else "false").toList =
      some (.bool truth) := by
    cases truth <;> simp [JsonOutline.ofWord?]
  rw [compact]
  refine spells_word ?_ meant (by rw [ofOutline?])
  cases truth <;> simp [IsWordChar, JsonToken.isBlank, JsonToken.mark?]

theorem spells_natural {natural : Nat} (fits : natural < 2 ^ 64) :
    Spells levels (compact (ofNat natural)).toList (ofNat natural) := by
  obtain ⟨numeral, written, meant⟩ := Numeral.exists_numeral fits
  rw [ofNat, compact, numberText, Nat.toString_eq_ofList_toDigits, String.toList_ofList]
  refine spells_word ?_ (JsonOutline.ofWord?_toDigits written) (by simp [ofOutline?, meant])
  intro c present
  exact JsonToken.isWordChar_of_isDigit
    (Nat.isDigit_of_mem_toDigits (by decide) (by decide) present)

/-- What holds of each member of an array or object holds of the members together. -/
theorem exists_members {α β : Type} {chars : α → List Char} {parses : List JsonToken → β → Prop}
    {meaning? : β → Option α} {members : List α}
    (each : ∀ member ∈ members, ∃ tokens outline, Reads (chars member) tokens ∧
      parses tokens outline ∧ meaning? outline = some member) :
    ∃ groups outlines, List.Forall₂ Reads (members.map chars) groups ∧
      List.Forall₂ parses groups outlines ∧ outlines.mapM meaning? = some members := by
  induction members with
  | nil => exact ⟨[], [], .nil, .nil, rfl⟩
  | cons member members ih =>
    rw [List.forall_mem_cons] at each
    obtain ⟨tokens, outline, reads, parsed, meant⟩ := each.1
    obtain ⟨groups, outlines, allRead, allParsed, allMeant⟩ := ih each.2
    exact ⟨tokens :: groups, outline :: outlines, .cons reads allRead, .cons parsed allParsed,
      by simp [meant, allMeant]⟩

theorem spells_array {items : List Json}
    (each : ∀ item ∈ items, Spells levels item.compact.toList item) :
    Spells (levels + 1) (compact (array items)).toList (array items) := by
  obtain ⟨groups, outlines, reads, parses, meant⟩ := exists_members each
  refine ⟨_, .array outlines, ?_, .array parses, by simp [ofOutline?, meant]⟩
  have opening : ReadsWhole ['['] [.openBracket] := ReadsWhole.nothing.reads.mark rfl
  have closing : ReadsWhole (_ ++ [']']) (_ ++ [.closeBracket]) :=
    (Reads.intercalate reads).mark rfl
  simpa [compact, compactItems_eq_map, String.toList_intercalate, Function.comp_def] using
    opening.append closing.reads

theorem spells_object {fields : List (String × Json)}
    (each : ∀ field ∈ fields, Spells levels field.2.compact.toList field.2) :
    Spells (levels + 1) (compact (object fields)).toList (object fields) := by
  have eachField : ∀ field ∈ fields, ∃ tokens outline,
      Reads (quoted field.1 ++ ":" ++ field.2.compact).toList tokens ∧
        ParsesField tokens outline ∧
        (do return (← text? outline.1, ← ofOutline? levels outline.2)) = some field := by
    intro field present
    obtain ⟨pieces, keyRead, keyMeant⟩ := exists_pieces field.1
    obtain ⟨tokens, outline, reads, parses, meant⟩ := each field present
    refine ⟨.text pieces :: .colon :: tokens, (pieces, outline), ?_, ⟨tokens, rfl, parses⟩,
      by simp [keyMeant, meant]⟩
    simpa using (keyRead.reads.mark (c := ':') rfl).append reads
  obtain ⟨groups, outlines, reads, parses, meant⟩ := exists_members eachField
  refine ⟨_, .object outlines, ?_, .object parses, congrArg (Option.map object) meant⟩
  have opening : ReadsWhole ['{'] [.openBrace] := ReadsWhole.nothing.reads.mark rfl
  have closing : ReadsWhole (_ ++ ['}']) (_ ++ [.closeBrace]) :=
    (Reads.intercalate reads).mark rfl
  simpa [compact, compactFields_eq_map, String.toList_intercalate, Function.comp_def] using
    opening.append closing.reads

theorem spells_compact (plain : value.Plain levels) : Spells levels value.compact.toList value := by
  fun_induction Plain levels value with
  | case1 => exact spells_null
  | case2 levels truth => exact spells_bool truth
  | case3 levels text => exact spells_string text
  | case4 levels number =>
    obtain ⟨natural, fits, rfl⟩ := plain
    exact spells_natural fits
  | case5 | case6 => exact plain.elim
  | case7 levels items ih =>
    exact spells_array fun item present => ih item (plain item present)
  | case8 levels fields ih =>
    exact spells_object fun field present => ih field (plain field present)

/-- A plain value on one line is read back. -/
theorem read?_compact (plain : value.Plain nestingLimit) : read? value.compact = some value :=
  (spells_compact plain).read?

/-- Nothing is skipped while all keys are known. -/
theorem filterMapM_known {known : List String} {levels : Nat}
    {outlines : List (List JsonPiece × JsonOutline)} {fields : List (String × Json)}
    (meant : (outlines.mapM fun (key, value) => do
      return (← text? key, ← ofOutline? levels value)) = some fields)
    (inKnown : ∀ field ∈ fields, field.1 ∈ known) :
    (outlines.filterMapM fun (pieces, outline) => do
      let key ← text? pieces
      if key ∈ known then
        let value ← ofOutline? levels outline
        return some (key, value)
      else return none) = some fields := by
  induction outlines generalizing fields with
  | nil => exact meant
  | cons outline rest ih =>
    obtain ⟨pieces, value⟩ := outline
    rw [List.mapM_cons] at meant
    simp only [Option.bind_eq_bind, Option.bind_eq_some_iff, Option.pure_def,
      Option.some.injEq] at meant
    obtain ⟨field, ⟨key, named, own, valued, rfl⟩, others, meant, rfl⟩ := meant
    have first : key ∈ known := inKnown (key, own) List.mem_cons_self
    have later := ih meant fun field present => inKnown field (List.mem_cons_of_mem _ present)
    simp only [Option.bind_eq_bind, Option.pure_def] at later
    simp [List.filterMapM_cons, named, first, valued, later]

/-- An object whose keys are all known is read whole. -/
theorem readKnown?_eq {known : List String} {text : String} {fields : List (String × Json)}
    (spelled : read? text = some (.object fields)) (inKnown : ∀ field ∈ fields, field.1 ∈ known) :
    readKnown? known text = some (.object fields) := by
  obtain ⟨outline, parsed, meant⟩ := Option.bind_eq_some_iff.mp spelled
  rw [readKnown?, parsed]
  cases outline with
  | object outlines =>
    obtain ⟨kept, meant, same⟩ := Option.map_eq_some_iff.mp meant
    cases same
    have nothingSkipped := filterMapM_known meant inKnown
    simp only [Option.bind_eq_bind, Option.bind_some, nestingLimit] at nothingSkipped ⊢
    rw [nothingSkipped]
    rfl
  | null | bool | number | text | array => exact meant

end Json
end QueryAudit
