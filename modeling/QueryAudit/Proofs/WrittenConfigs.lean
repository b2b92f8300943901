import Mathlib.Data.List.Lex
import Mathlib.Data.String.Basic
import Mathlib.Tactic.FinCases
import QueryAudit.Config.Reader
import QueryAudit.Proofs.WrittenDumps
import QueryAudit.Proofs.WrittenTexts

/-! Configurations written and read back. A field that holds its default may be left out of the
text. What is read is the configuration itself when it is valid, and otherwise what is wrong with
it: the first condition that fails, and of several bad names the least by its bytes. -/
namespace QueryAudit

/-! ## The order of bytes -/

/-- A text comes before another one by the bytes that encode them. -/
def BytesBefore (text other : String) : Prop :=
  List.Lex (· < ·) text.toUTF8.data.toList other.toUTF8.data.toList

theorem toUTF8_eq_flatMap (text : String) :
    text.toUTF8.data.toList = text.toList.flatMap String.utf8EncodeChar := by
  rw [String.toUTF8_eq_toByteArray, ← String.utf8Encode_toList, List.utf8Encode,
    List.toList_data_toByteArray]

/-- The bytes of a lesser character are less, whatever follows. -/
theorem lex_utf8EncodeChar {c d : Char} (less : c < d) (rest others : List UInt8) :
    List.Lex (· < ·) (String.utf8EncodeChar c ++ rest) (String.utf8EncodeChar d ++ others) := by
  have below : c.val.toNat < d.val.toNat := less
  have bound : d.val.toNat < 0x110000 := by
    have := d.valid
    simp only [UInt32.isValidChar, Nat.isValidChar] at this
    omega
  have high (code : Nat) : code / 4096 = code / 64 / 64 := (Nat.div_div_eq_div_mul code 64 64).symm
  have highest (code : Nat) : code / 262144 = code / 64 / 64 / 64 := by
    rw [Nat.div_div_eq_div_mul, Nat.div_div_eq_div_mul]
  simp only [String.utf8EncodeChar]
  generalize c.val.toNat = lower at *
  generalize d.val.toNat = upper at *
  split_ifs <;>
    simp (disch := omega) only [List.cons_append, List.nil_append, List.cons_lex_cons_iff,
      UInt8.lt_iff_toNat_lt, ← UInt8.toNat_inj, UInt8.toNat_ofNat', high, highest,
      Nat.mod_eq_of_lt] <;> omega

theorem lex_flatMap_utf8EncodeChar {chars others : List Char}
    (less : List.Lex (· < ·) chars others) :
    List.Lex (· < ·) (chars.flatMap String.utf8EncodeChar)
      (others.flatMap String.utf8EncodeChar) := by
  induction less with
  | @nil c rest =>
    cases encoded : String.utf8EncodeChar c with
    | nil => exact absurd encoded String.utf8EncodeChar_ne_nil
    | cons first more =>
      rw [List.flatMap_nil, List.flatMap_cons, encoded]
      exact .nil
  | cons _ ih =>
    rw [List.flatMap_cons, List.flatMap_cons]
    exact List.Lex.append_left _ ih _
  | rel lower =>
    rw [List.flatMap_cons, List.flatMap_cons]
    exact lex_utf8EncodeChar lower _ _

/-- Texts are ordered by their bytes as they are by their characters. -/
theorem bytesBefore_iff {text other : String} : BytesBefore text other ↔ text < other := by
  have encoded {text other : String} (less : text < other) : BytesBefore text other := by
    rw [BytesBefore, toUTF8_eq_flatMap, toUTF8_eq_flatMap]
    exact lex_flatMap_utf8EncodeChar (String.lt_iff_toList_lt.mp less)
  refine ⟨fun before => ?_, encoded⟩
  rcases lt_trichotomy text other with less | rfl | more
  · exact less
  · exact absurd before (irrefl_of (List.Lex (· < ·)) _)
  · exact absurd before (asymm_of (List.Lex (· < ·)) (encoded more))

/-! ## Names and families -/

theorem insertName_last {name : String} {names : List String}
    (last : ∀ other ∈ names, other < name) : insertName name names = names ++ [name] := by
  induction names with
  | nil => rfl
  | cons head rest ih =>
    rw [List.forall_mem_cons] at last
    rw [insertName, if_neg (String.lt_asymm last.1), if_neg (String.ne_of_lt last.1).symm,
      ih last.2, List.cons_append]

namespace Names

theorem toList_eq_nil_iff {names : Names} : names.toList = [] ↔ names = empty := by
  cases names
  simp [empty]

@[simp] theorem ofList_toList (names : Names) : ofList names.toList = names := by
  have gathered (rest done : List String) (ascending : (done ++ rest).Pairwise (· < ·))
      (start : done.Pairwise (· < ·)) :
      rest.foldl insert ⟨done, start⟩ = ⟨done ++ rest, ascending⟩ := by
    induction rest generalizing done with
    | nil => simp
    | cons name rest ih =>
      have last : ∀ other ∈ done, other < name := fun other present =>
        (List.pairwise_append.mp ascending).2.2 other present name List.mem_cons_self
      have inserted : insert ⟨done, start⟩ name = ⟨done ++ [name], by
          rw [← insertName_last last]
          exact insertName_ascending start⟩ := by
        simp only [insert, insertName_last last]
      rw [List.foldl_cons, inserted, ih (done ++ [name]) (by simpa using ascending)]
      simp
  exact gathered names.toList [] names.ascending .nil

@[simp] theorem ofJson?_ofList (names : Names) :
    ofJson? (.ofList .string names.toList) = some names := by
  rw [ofJson?, Json.list?_string?_ofList, Option.map_some, ofList_toList]

end Names

namespace RemoteFamily

@[simp] theorem ofJson?_toJson (family : RemoteFamily) : ofJson? family.toJson = some family := by
  cases family <;> simp [ofJson?, toJson]

theorem plain_toJson (levels : Nat) (family : RemoteFamily) :
    family.toJson.Plain (levels + 2) := by
  cases family <;> simp [toJson, Json.ofList, Json.Plain]

end RemoteFamily

/-! ## Fields left out -/

namespace Json

variable {α : Type} {fields kept : List (String × Json)} {key : String} {value : Json}

theorem valuesOf_of_mem (distinct : (fields.map Prod.fst).Nodup) (present : (key, value) ∈ fields) :
    valuesOf fields key = [value] := by
  induction fields with
  | nil => cases present
  | cons field rest ih =>
    rw [List.map_cons, List.nodup_cons] at distinct
    rw [valuesOf_cons]
    rcases List.mem_cons.mp present with rfl | later
    · rw [if_pos rfl, valuesOf_eq_nil_iff.mpr]
      intro other isOther same
      exact distinct.1 (List.mem_map.mpr ⟨other, isOther, same⟩)
    · rw [if_neg, ih distinct.2 later]
      rintro rfl
      exact distinct.1 (List.mem_map.mpr ⟨(_, value), later, rfl⟩)

/-- A field may be left out when its default is what it holds. -/
theorem withDefault_kept {default part : α} {decode : Json → Option α}
    (distinct : (fields.map Prod.fst).Nodup) (chosen : kept.Sublist fields)
    (present : (key, value) ∈ fields) (read : decode value = some part)
    (missing : (key, value) ∉ kept → default = part) :
    withDefault kept key default decode = some part := by
  have keptDistinct : (kept.map Prod.fst).Nodup := distinct.sublist (chosen.map _)
  by_cases isKept : (key, value) ∈ kept
  · simp [withDefault, field?, valuesOf_of_mem keptDistinct isKept, read]
  · have nothing : valuesOf kept key = [] := by
      rw [valuesOf_eq_nil_iff]
      rintro ⟨own, other⟩ isOther rfl
      have same : valuesOf fields own = [other] := valuesOf_of_mem distinct (chosen.subset isOther)
      rw [valuesOf_of_mem distinct present, List.cons.injEq] at same
      exact isKept (same.1 ▸ isOther)
    simp [withDefault, field?, nothing, missing isKept]

end Json

namespace Config

variable {config : Config} {error other : ConfigError} {name : String}

/-- A field of a configuration holds its default. -/
def IsDefault (config : Config) : (key : String) → Prop
  | "recognized_operators" => config.operators = defaultOperators
  | "remote_family" => config.remoteFamily = defaultFamily
  | "max_type_depth" => config.maxTypeDepth = defaultDepth
  | _ => False

/-- The JSON form of a configuration, without any number of fields that hold their default. -/
inductive Written (config : Config) : Json → Prop where
  | intro {fields kept : List (String × Json)} (form : config.toJson = .object fields)
      (chosen : kept.Sublist fields)
      (defaults : ∀ field ∈ fields, field ∉ kept → config.IsDefault field.1) :
      Written config (.object kept)

theorem Written.ofJson? {value : Json} (written : config.Written value) :
    ofJson? value = some config := by
  obtain @⟨fields, kept, form, chosen, defaults⟩ := written
  injection form with form
  have known : kept.all (fun field => keys.contains field.1) = true := by
    rw [List.all_eq_true]
    intro field present
    have own := chosen.subset present
    rw [← form] at own
    fin_cases own <;> rfl
  have distinct : (fields.map Prod.fst).Nodup := by simp [← form]
  have hasOperators :
      ("recognized_operators", Json.ofList .string config.operators.toList) ∈ fields := by
    simp [← form]
  have hasFamily : ("remote_family", config.remoteFamily.toJson) ∈ fields := by simp [← form]
  have hasDepth : ("max_type_depth", Json.ofNat config.maxTypeDepth) ∈ fields := by simp [← form]
  have operators := Json.withDefault_kept distinct chosen hasOperators
    (Names.ofJson?_ofList config.operators) fun missing => (defaults _ hasOperators missing).symm
  have family := Json.withDefault_kept distinct chosen hasFamily
    (RemoteFamily.ofJson?_toJson config.remoteFamily)
    fun missing => (defaults _ hasFamily missing).symm
  have depth := Json.withDefault_kept distinct chosen hasDepth
    (Json.natural?_ofNat config.maxTypeDepth) fun missing => (defaults _ hasDepth missing).symm
  rw [Config.ofJson?, if_pos known, operators, family, depth]
  rfl

/-! ## What makes a configuration valid -/

/-- A name that an operator may have. -/
def Identifier (name : String) : Prop :=
  ∃ first rest, name.toList = first :: rest ∧ (first = '_' ∨ Text.isAlphabetic first = true) ∧
    ∀ c ∈ rest, c = '_' ∨ Text.isAlphabetic c = true ∨ Text.isNumeric c = true

theorem isIdentifier_iff : isIdentifier name = true ↔ Identifier name := by
  unfold isIdentifier Identifier
  cases name.toList with
  | nil => simp
  | cons first rest => simp [isWordStart, isWordPart, or_assoc]

/-- It has operators, all with a proper name, counts some types as remote and allows some depth. -/
structure Valid (config : Config) : Prop where
  operators : config.operators.toList ≠ []
  identifiers : ∀ name ∈ config.operators.toList, Identifier name
  family : config.remoteFamily ≠ .startingWith "" ∧ config.remoteFamily ≠ .oneOf .empty
  depth : 1 ≤ config.maxTypeDepth

/-- What is wrong with a configuration. Of its bad names only the least counts. -/
inductive Fault (config : Config) : ConfigError → Prop where
  | noOperators (nothing : config.operators.toList = []) : Fault config .noOperators
  | invalidOperatorName (name : String) (present : name ∈ config.operators.toList)
      (bad : ¬ Identifier name)
      (least : ∀ other ∈ config.operators.toList, ¬ Identifier other →
        other = name ∨ BytesBefore name other) :
      Fault config (.invalidOperatorName name)
  | emptyStart (empty : config.remoteFamily = .startingWith "") : Fault config .emptyStart
  | noRemoteTypes (untyped : config.remoteFamily = .oneOf .empty) : Fault config .noRemoteTypes
  | zeroDepth (zero : config.maxTypeDepth = 0) : Fault config .zeroDepth

end Config

/-- The place of a condition among those of a valid configuration. -/
def ConfigError.place : ConfigError → Nat
  | malformed => 0
  | noOperators => 1
  | invalidOperatorName _ => 2
  | emptyStart | noRemoteTypes => 3
  | zeroDepth => 4

namespace Config

variable {config : Config} {error other : ConfigError} {name : String}

/-- A fault of the first condition that fails. -/
def FirstFault (config : Config) (error : ConfigError) : Prop :=
  config.Fault error ∧ ∀ other, config.Fault other → error.place ≤ other.place

theorem Valid.no_fault (valid : config.Valid) : ¬ config.Fault error := by
  intro fault
  cases fault with
  | noOperators nothing => exact valid.operators nothing
  | invalidOperatorName name present bad => exact bad (valid.identifiers name present)
  | emptyStart empty => exact valid.family.1 empty
  | noRemoteTypes untyped => exact valid.family.2 untyped
  | zeroDepth zero => exact absurd zero (Nat.ne_of_gt valid.depth)

theorem Fault.eq_of_place_eq (fault : config.Fault error) (also : config.Fault other)
    (same : error.place = other.place) : error = other := by
  cases fault with
  | noOperators =>
    cases also with
    | noOperators => rfl
    | _ => cases same
  | invalidOperatorName name present bad least =>
    cases also with
    | invalidOperatorName second isPresent isBad isLeast =>
      rcases least second isPresent isBad with rfl | before
      · rfl
      rcases isLeast name present bad with rfl | after
      · rfl
      exact absurd (bytesBefore_iff.mp after) (String.lt_asymm (bytesBefore_iff.mp before))
    | _ => cases same
  | emptyStart empty =>
    cases also with
    | emptyStart => rfl
    | noRemoteTypes untyped => cases empty.symm.trans untyped
    | _ => cases same
  | noRemoteTypes untyped =>
    cases also with
    | noRemoteTypes => rfl
    | emptyStart empty => cases empty.symm.trans untyped
    | _ => cases same
  | zeroDepth =>
    cases also with
    | zeroDepth => rfl
    | _ => cases same

theorem FirstFault.unique (first : config.FirstFault error) (second : config.FirstFault other) :
    error = other :=
  first.1.eq_of_place_eq second.1 (le_antisymm (first.2 _ second.1) (second.2 _ first.1))

/-- The first bad name of an ascending list is the least. -/
theorem Fault.of_find? (found : config.operators.toList.find? (!isIdentifier ·) = some name) :
    config.Fault (.invalidOperatorName name) := by
  obtain ⟨bad, before, after, split, good⟩ := List.find?_eq_some_iff_append.mp found
  have ascending := config.operators.ascending
  rw [split] at ascending
  have above := (List.pairwise_cons.mp (List.pairwise_append.mp ascending).2.1).1
  refine .invalidOperatorName name (by simp [split]) ?_ ?_
  · simpa [← isIdentifier_iff] using bad
  · intro other present otherBad
    rw [split, List.mem_append, List.mem_cons] at present
    rcases present with early | rfl | late
    · exact absurd (isIdentifier_iff.mp (by simpa using good other early)) otherBad
    · exact .inl rfl
    · exact .inr (bytesBefore_iff.mpr (above other late))

/-- The conditions one after the other. -/
theorem validate_eq (config : Config) :
    config.validate =
      if config.operators.toList = [] then .error .noOperators
      else match config.operators.toList.find? (!isIdentifier ·) with
        | some name => .error (.invalidOperatorName name)
        | none =>
          if config.remoteFamily = .startingWith "" then .error .emptyStart
          else if config.remoteFamily = .oneOf .empty then .error .noRemoteTypes
          else if config.maxTypeDepth = 0 then .error .zeroDepth
          else .ok () := by
  have thrown (error : ConfigError) : (throw error : Except ConfigError Unit) = .error error := rfl
  have stopped (error : ConfigError) (next : Unit → Except ConfigError Unit) :
      (Except.error error >>= next) = .error error := rfl
  have passed : (pure () : Except ConfigError Unit) = .ok () := rfl
  by_cases nothing : config.operators.toList = []
  · simp [validate, Names.isEmpty, nothing, thrown, stopped]
  cases bad : config.operators.toList.find? (!isIdentifier ·) with
  | some name => simp [validate, Names.isEmpty, nothing, bad, thrown, stopped]
  | none =>
    cases family : config.remoteFamily with
    | startingWith text =>
      simp [validate, Names.isEmpty, nothing, bad, family, thrown, stopped, passed]
    | oneOf types =>
      simp [validate, Names.isEmpty, Names.toList_eq_nil_iff, nothing, bad, family, thrown,
        stopped, passed]

/-- Every configuration is either valid or refused for the first of its faults. -/
theorem validate_spec (config : Config) :
    (config.validate = .ok () ∧ config.Valid) ∨
      ∃ error, config.validate = .error error ∧ config.FirstFault error := by
  rw [validate_eq]
  split
  · next nothing =>
    refine .inr ⟨_, rfl, .noOperators nothing, ?_⟩
    intro other fault
    cases fault <;> simp [ConfigError.place]
  next present =>
  split
  · next name bad =>
    refine .inr ⟨_, rfl, .of_find? bad, ?_⟩
    intro other fault
    cases fault with
    | noOperators nothing => exact absurd nothing present
    | _ => simp [ConfigError.place]
  next noneBad =>
  have good : ∀ name ∈ config.operators.toList, Identifier name := by
    intro name present
    simpa [isIdentifier_iff] using List.find?_eq_none.mp noneBad name present
  -- From here on a fault is one of the family or of the depth.
  have later (other : ConfigError) (fault : config.Fault other) : 3 ≤ other.place := by
    cases fault with
    | noOperators nothing => exact absurd nothing present
    | invalidOperatorName name present bad => exact absurd (good name present) bad
    | _ => simp [ConfigError.place]
  split
  · next empty => exact .inr ⟨_, rfl, .emptyStart empty, later⟩
  next named =>
  split
  · next untyped => exact .inr ⟨_, rfl, .noRemoteTypes untyped, later⟩
  next typed =>
  split
  · next zero =>
    refine .inr ⟨_, rfl, .zeroDepth zero, ?_⟩
    intro other fault
    have behind := later other fault
    cases fault with
    | emptyStart empty => exact absurd empty named
    | noRemoteTypes untyped => exact absurd untyped typed
    | zeroDepth => exact le_rfl
    | _ => simp [ConfigError.place] at behind
  · next positive => exact .inl ⟨rfl, present, good, ⟨named, typed⟩, by omega⟩

theorem validate_eq_ok_iff : config.validate = .ok () ↔ config.Valid := by
  rcases config.validate_spec with ⟨accepted, valid⟩ | ⟨error, refused, first⟩
  · simp [accepted, valid]
  · simp only [refused, reduceCtorEq, false_iff]
    exact fun valid => valid.no_fault first.1

theorem validate_eq_error_iff : config.validate = .error error ↔ config.FirstFault error := by
  rcases config.validate_spec with ⟨accepted, valid⟩ | ⟨found, refused, first⟩
  · simp only [accepted, reduceCtorEq, false_iff]
    exact fun first => valid.no_fault first.1
  · rw [refused, Except.error.injEq]
    constructor
    · rintro rfl
      exact first
    · exact first.unique

/-! ## Reading back -/

theorem Written.plain {value : Json} (written : config.Written value)
    (fits : config.maxTypeDepth < 2 ^ 64) : value.Plain Json.nestingLimit := by
  obtain @⟨fields, kept, form, chosen, -⟩ := written
  injection form with form
  intro field present
  have own := chosen.subset present
  rw [← form] at own
  fin_cases own
  · simp [Json.ofList, Json.Plain]
  · exact RemoteFamily.plain_toJson _ _
  · exact ⟨_, fits, rfl⟩

/-- A written configuration can be read, from the text on one line and from every other text of the
same JSON. A valid configuration is read as it was written, and of any other one the reader gives
the first fault. -/
theorem read_written_back (config : Config) (value : Json) (written : config.Written value)
    (fits : config.maxTypeDepth < 2 ^ 64) :
    Json.read? value.compact = some value ∧
      ∀ text, Json.read? text = some value →
        (∀ other, read text = .ok other ↔ other = config ∧ config.Valid) ∧
          ∀ error, read text = .error error ↔ config.FirstFault error := by
  refine ⟨Json.read?_compact (written.plain fits), ?_⟩
  intro text spelled
  have decoded : read text = config.validate.map fun _ => config := by
    simp only [read, spelled, decode, written.ofJson?]
  refine ⟨fun other => ?_, fun error => ?_⟩
  · rw [decoded, ← validate_eq_ok_iff]
    cases config.validate <;> simp [Except.map, eq_comm]
  · rw [decoded, ← validate_eq_error_iff]
    cases config.validate <;> simp [Except.map]

/-- Two of the operators are no names, the family is the default and left out, and the depth is the
greatest that can be read. -/
theorem read_written_back_numbered :
    let config : Config :=
      ⟨.ofList ["Where", "\u00e9t\u00e9", "2nd", "1st"], defaultFamily, 2 ^ 64 - 1⟩
    let value : Json := .object [
      ("recognized_operators", .ofList .string config.operators.toList),
      ("max_type_depth", .ofNat config.maxTypeDepth)]
    (config.Written value ∧ config.maxTypeDepth < 2 ^ 64) ∧
      Json.read? value.compact = some value ∧
      ∀ text, Json.read? text = some value →
        (∀ other, read text = .ok other ↔ other = config ∧ config.Valid) ∧
          ∀ error, read text = .error error ↔ config.FirstFault error := by
  intro config value
  have written : config.Written value := by
    refine .intro rfl (.cons_cons _ (.cons _ (.cons_cons _ .slnil))) ?_
    intro field present missing
    fin_cases present
    · simp at missing
    · rfl
    · simp at missing
  have fits : config.maxTypeDepth < 2 ^ 64 := by decide
  exact ⟨⟨written, fits⟩, read_written_back config value written fits⟩

end Config
end QueryAudit
