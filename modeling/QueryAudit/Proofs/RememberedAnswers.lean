import QueryAudit.Proofs.TypeHeights

/-! The memory never changes an answer. A memory is sound when every height in it is the height
of its type and every refusal in it holds under any limit. Each question keeps the memory sound
and is answered as if it were the first one, whatever was cut off, refused or found cyclic on
the way. -/
namespace QueryAudit.Evaluability

variable {store : Store} {type : TypeId} {height levels limit : Nat} {memo before after : Memo}
  {answer : Option Nat} {path : List TypeId}

/-! ## Sound memories -/

/-- What is remembered is true of the store, apart from any question and any limit but the one
that heights are kept under; and the types of a path are being unfolded, none between questions. -/
structure Memo.Sound (memo : Memo) (store : Store) (limit : Nat) (path : List TypeId := []) :
    Prop where
  known : ∀ type height, memo.heights[type]? = some (some height) →
    HasHeight store type height ∧ height ≤ limit
  refused : ∀ type, memo.heights[type]? = some none → ∀ height, ¬ HasHeight store type height
  unfolding : memo.inProgress = path

namespace Memo

@[simp] theorem cut_truncated (memo : Memo) : memo.cut.truncated = true := rfl

@[simp] theorem enter_truncated (memo : Memo) (type : TypeId) :
    (memo.enter type).truncated = memo.truncated := rfl

@[simp] theorem leave_truncated (memo : Memo) (type : TypeId) :
    (memo.leave type).truncated = memo.truncated := rfl

@[simp] theorem record_truncated (memo : Memo) (type : TypeId) (height : Option Nat) :
    (memo.record type height).truncated = memo.truncated := by
  unfold record
  split <;> rfl

namespace Sound

theorem empty (store : Store) (limit : Nat) : ({} : Memo).Sound store limit := by
  constructor <;> simp

theorem cut (sound : memo.Sound store limit path) : memo.cut.Sound store limit path :=
  ⟨sound.known, sound.refused, sound.unfolding⟩

/-- A new question starts without a mark of the limit. -/
theorem unmarked (sound : memo.Sound store limit path) :
    Sound { memo with truncated := false } store limit path :=
  ⟨sound.known, sound.refused, sound.unfolding⟩

theorem enter (sound : memo.Sound store limit path) (type : TypeId) :
    (memo.enter type).Sound store limit (type :: path) :=
  ⟨sound.known, sound.refused, congrArg (type :: ·) sound.unfolding⟩

theorem leave (sound : memo.Sound store limit (type :: path)) :
    (memo.leave type).Sound store limit path := by
  refine ⟨sound.known, sound.refused, ?_⟩
  rw [Memo.leave, sound.unfolding, List.erase_cons_head]

theorem insert (sound : memo.Sound store limit path)
    (known : ∀ height, answer = some height → HasHeight store type height ∧ height ≤ limit)
    (refused : answer = none → ∀ height, ¬ HasHeight store type height) :
    Sound { memo with heights := memo.heights.insert type answer } store limit path := by
  refine ⟨?_, ?_, sound.unfolding⟩
  · intro asked height found
    rw [Std.HashMap.getElem?_insert] at found
    split at found
    · next same =>
      cases eq_of_beq same
      exact known height (Option.some.inj found)
    · exact sound.known asked height found
  · intro asked found
    rw [Std.HashMap.getElem?_insert] at found
    split at found
    · next same =>
      cases eq_of_beq same
      exact refused (Option.some.inj found)
    · exact sound.refused asked found

end Sound
end Memo

/-- The meaning of an answer about a type of which `levels` levels were looked at. A refusal of a
type that has a height is owed to the limit, and the limit left its mark. -/
def Means (store : Store) (levels : Nat) (type : TypeId) (marked : Bool) : Option Nat → Prop
  | some height => HasHeight store type height ∧ height < levels
  | none => ∀ height, HasHeight store type height → levels ≤ height ∧ marked = true

/-- An answered question: the answer is right, the memory is still sound and the same types are
being unfolded, and a mark of the limit is not taken back. -/
structure Answered (store : Store) (limit levels : Nat) (path : List TypeId) (type : TypeId)
    (before : Memo) (result : Option Nat × Memo) : Prop where
  means : Means store levels type result.2.truncated result.1
  sound : result.2.Sound store limit path
  kept : before.truncated = true → result.2.truncated = true

/-- Remembering a right answer keeps the memory sound: a refusal is kept only while the limit
has left no mark. -/
theorem Memo.Sound.record (sound : memo.Sound store limit path) (within : levels ≤ limit + 1)
    (means : Means store levels type memo.truncated answer) :
    (memo.record type answer).Sound store limit path := by
  unfold Memo.record
  split
  · next remembered =>
    apply sound.insert
    · rintro height rfl
      exact ⟨means.1, by have := means.2; omega⟩
    · rintro rfl height high
      have marked := (means height high).2
      simp [marked] at remembered
  · exact sound

/-! ## Going through the members of a record -/

/-- `recordHeightM` where nobody watches. -/
def recordHeight (ask : Memo → TypeId → Option Nat × Memo) (memo : Memo) (height : Nat)
    (members : List Member) : Option Nat × Memo :=
  Id.run (recordHeightM ask memo height members)

theorem recordHeight_cons (ask : Memo → TypeId → Option Nat × Memo) (memo : Memo) (height : Nat)
    (member : Member) (rest : List Member) :
    recordHeight ask memo height (member :: rest) =
      match ask memo member.type with
      | (none, memo) => (none, memo)
      | (some inner, memo) => recordHeight ask memo (max height (inner + 1)) rest :=
  rfl

/-- What going through the members of a record finds. -/
structure MembersAnswered (store : Store) (limit levels reached : Nat) (path : List TypeId)
    (members : List Member) (before : Memo) (result : Option Nat × Memo) : Prop where
  total : ∀ height, result.1 = some height →
    (∀ member ∈ members, ∃ inner < levels, HasHeight store member.type inner) ∧
      ∀ heights : TypeId → Nat,
        (∀ member ∈ members, HasHeight store member.type (heights member.type)) →
          height = max reached (tallest heights members)
  refused : result.1 = none →
    ∃ member ∈ members, Means store levels member.type result.2.truncated none
  sound : result.2.Sound store limit path
  kept : before.truncated = true → result.2.truncated = true

theorem recordHeight_answered {ask : Memo → TypeId → Option Nat × Memo} {members : List Member}
    (reached : Nat) (sound : memo.Sound store limit path)
    (asked : ∀ member ∈ members, ∀ memo : Memo, memo.Sound store limit path →
      Answered store limit levels path member.type memo (ask memo member.type)) :
    MembersAnswered store limit levels reached path members memo
      (recordHeight ask memo reached members) := by
  induction members generalizing memo reached with
  | nil => exact ⟨by simp [recordHeight, recordHeightM, tallest], nofun, sound, id⟩
  | cons head rest ih =>
    have first := asked head List.mem_cons_self memo sound
    rw [recordHeight_cons]
    cases found : ask memo head.type with
    | mk answer middle =>
    rw [found] at first
    cases answer with
    | none =>
      exact ⟨by simp, fun _ => ⟨head, List.mem_cons_self, first.means⟩, first.sound, first.kept⟩
    | some inner =>
      have others := ih (max reached (inner + 1)) first.sound
        fun member listed => asked member (List.mem_cons_of_mem _ listed)
      refine ⟨?_, ?_, others.sound, fun marked => others.kept (first.kept marked)⟩
      · intro height done
        obtain ⟨highBelow, total⟩ := others.total height done
        refine ⟨?_, ?_⟩
        · intro member listed
          rcases List.mem_cons.mp listed with rfl | listed
          · exact ⟨inner, first.means.2, first.means.1⟩
          · exact highBelow member listed
        · intro heights high
          have same : heights head.type = inner :=
            (high head List.mem_cons_self).unique first.means.1
          have restTotal := total heights fun member listed =>
            high member (List.mem_cons_of_mem _ listed)
          simp only [tallest, List.foldr_cons] at restTotal ⊢
          omega
      · intro done
        obtain ⟨member, listed, means⟩ := others.refused done
        exact ⟨member, List.mem_cons_of_mem _ listed, means⟩

theorem exists_heights {members : List Member}
    (high : ∀ member ∈ members, ∃ inner < levels, HasHeight store member.type inner) :
    ∃ heights : TypeId → Nat, ∀ member ∈ members,
      HasHeight store member.type (heights member.type) ∧ heights member.type < levels := by
  classical
  refine ⟨fun type => if known : ∃ inner < levels, HasHeight store type inner
    then known.choose else 0, ?_⟩
  intro member listed
  have known := high member listed
  simp only [known, ↓reduceDIte]
  exact ⟨known.choose_spec.2, known.choose_spec.1⟩

/-! ## Measuring a type -/

/-- `kindHeightM` where nobody watches. -/
def kindHeight (ask : Memo → TypeId → Option Nat × Memo) (memo : Memo) (kind : Option Kind) :
    Option Nat × Memo :=
  Id.run (kindHeightM ask memo kind)

/-- One level is measured rightly when the level below is. -/
theorem kindHeight_answered (ask : Memo → TypeId → Option Nat × Memo)
    (sound : memo.Sound store limit path)
    (asked : ∀ inner, Part store type inner → ∀ memo : Memo, memo.Sound store limit path →
      Answered store limit levels path inner memo (ask memo inner)) :
    Answered store limit (levels + 1) path type memo
      (kindHeight ask memo (store.kind? type)) := by
  cases held : store.kind? type with
  | none =>
    refine ⟨?_, sound, id⟩
    intro height high
    cases high <;> simp_all
  | some kind =>
    cases kind with
    | scalar scalar =>
      refine ⟨?_, sound, id⟩
      by_cases transportable : scalar.isTransportable = true
      · simp only [kindHeight, kindHeightM, transportable, ↓reduceIte]
        exact ⟨.scalar held transportable, Nat.succ_pos _⟩
      · simp only [kindHeight, kindHeightM, transportable]
        intro height high
        cases high <;> simp_all
    | enumeration name underlying =>
      exact ⟨⟨.enumeration held, Nat.succ_pos _⟩, sound, id⟩
    | anonymous members =>
      have found := recordHeight_answered 0 sound fun member listed =>
        asked member.type (.member held listed)
      have same : kindHeight ask memo (some (.anonymous members)) =
        recordHeight ask memo 0 members := rfl
      rw [same]
      refine ⟨?_, found.sound, found.kept⟩
      cases outcome : (recordHeight ask memo 0 members).1 with
      | some height =>
        obtain ⟨highBelow, total⟩ := found.total height outcome
        obtain ⟨heights, high⟩ := exists_heights highBelow
        have same : height = tallest heights members := by
          simpa using total heights fun member listed => (high member listed).1
        have bounded := tallest_le fun member listed => (high member listed).2
        rw [same]
        exact ⟨.record held fun member listed => (high member listed).1, by omega⟩
      | none =>
        obtain ⟨member, listed, refused⟩ := found.refused outcome
        intro height high
        obtain ⟨lower, less, highInside⟩ := high.part (.member held listed)
        obtain ⟨above, marked⟩ := refused lower highInside
        exact ⟨by omega, marked⟩
    | array element rank =>
      have found := asked element (.element held) memo sound
      have same : kindHeight ask memo (some (.array element rank)) =
        ((ask memo element).1.map (· + 1), (ask memo element).2) := rfl
      rw [same]
      refine ⟨?_, found.sound, found.kept⟩
      have means := found.means
      cases outcome : (ask memo element).1 with
      | some inner =>
        rw [outcome] at means
        exact ⟨.array held means.1, Nat.succ_lt_succ means.2⟩
      | none =>
        rw [outcome] at means
        intro height high
        obtain ⟨lower, less, highInside⟩ := high.part (.element held)
        obtain ⟨above, marked⟩ := means lower highInside
        exact ⟨by omega, marked⟩
    | named name arguments =>
      refine ⟨?_, sound, id⟩
      intro height high
      cases high <;> simp_all
    | placeholder =>
      refine ⟨?_, sound, id⟩
      intro height high
      cases high <;> simp_all

/-- `measureM` where nobody watches. -/
def measure (store : Store) (levels depth : Nat) (memo : Memo) (type : TypeId) :
    Option Nat × Memo :=
  Id.run (measureM store levels depth memo type)

theorem measure_known {depth : Nat} (known : memo.heights[type]? = some (some height)) :
    measure store (levels + 1) depth memo type =
      if levels < height then (none, memo.cut) else (some height, memo) := by
  simp only [measure, measureM, known]
  rfl

theorem measure_refused {depth : Nat} (known : memo.heights[type]? = some none) :
    measure store (levels + 1) depth memo type = (none, memo) := by
  simp only [measure, measureM, known]
  rfl

theorem measure_cyclic {depth : Nat} (unknown : memo.heights[type]? = none)
    (inside : type ∈ memo.inProgress) :
    measure store (levels + 1) depth memo type = (none, memo) := by
  simp only [measure, measureM, unknown, inside, ↓reduceIte]
  rfl

theorem measure_unknown {depth : Nat} (unknown : memo.heights[type]? = none)
    (outside : type ∉ memo.inProgress) :
    measure store (levels + 1) depth memo type =
      let found := kindHeight (measure store levels (depth + 1)) (memo.enter type)
        (store.kind? type)
      (found.1, (found.2.leave type).record type found.1) := by
  simp only [measure, measureM, unknown, outside, ↓reduceIte]
  rfl

/-- Measuring a type answers rightly from any sound memory and inside any types that contain
it. -/
theorem measure_answered (depth : Nat) (type : TypeId) (sound : memo.Sound store limit path)
    (within : levels ≤ limit + 1) (inside : ∀ outer ∈ path, Contains store outer type) :
    Answered store limit levels path type memo (measure store levels depth memo type) := by
  induction levels generalizing depth path memo type with
  | zero => exact ⟨fun height _ => ⟨Nat.zero_le _, rfl⟩, sound.cut, fun _ => rfl⟩
  | succ levels ih =>
    cases known : memo.heights[type]? with
    | some outcome =>
      cases outcome with
      | some height =>
        have high := (sound.known type height known).1
        rw [measure_known known]
        split
        · refine ⟨?_, sound.cut, fun _ => rfl⟩
          intro again highAgain
          have := high.unique highAgain
          exact ⟨by omega, rfl⟩
        · exact ⟨⟨high, by omega⟩, sound, id⟩
      | none =>
        rw [measure_refused known]
        exact ⟨fun height high => absurd high (sound.refused type known height), sound, id⟩
    | none =>
      by_cases cyclic : type ∈ memo.inProgress
      · rw [measure_cyclic known cyclic]
        rw [sound.unfolding] at cyclic
        exact ⟨fun height high => absurd (inside type cyclic) high.acyclic, sound, id⟩
      · rw [measure_unknown known cyclic]
        have found := kindHeight_answered (measure store levels (depth + 1)) (sound.enter type)
          fun inner part memo sound => ih (depth + 1) inner sound (by omega) (by
            intro outer listed
            rcases List.mem_cons.mp listed with rfl | listed
            · exact .single part
            · exact (inside outer listed).tail part)
        exact ⟨by simpa using found.means, found.sound.leave.record within found.means,
          by simpa using found.kept⟩

/-! ## Evaluating a type -/

theorem evaluate_known {outcome : Option Nat} (known : memo.heights[type]? = some outcome) :
    evaluate store limit memo type = (⟨type, true, outcome.any (· ≤ limit)⟩, memo) := by
  simp only [evaluate, evaluateM, known]
  rfl

theorem evaluate_unknown (unknown : memo.heights[type]? = none) :
    evaluate store limit memo type =
      let found := measure store (limit + 1) 0 { memo with truncated := false } type
      (⟨type, false, found.1.isSome⟩, found.2) := by
  simp only [evaluate, evaluateM, unknown]
  rfl

/-- A question is answered by the height of the type alone, and the memory stays sound. -/
theorem evaluate_answered (sound : memo.Sound store limit) (type : TypeId) :
    ((evaluate store limit memo type).1.outcome = true ↔ PlainWithin store limit type) ∧
      (evaluate store limit memo type).2.Sound store limit := by
  cases known : memo.heights[type]? with
  | some outcome =>
    rw [evaluate_known known]
    refine ⟨?_, sound⟩
    cases outcome with
    | some height =>
      obtain ⟨high, within⟩ := sound.known type height known
      simp only [Option.any_some, decide_eq_true_eq]
      exact ⟨fun _ => ⟨height, within, high⟩, fun _ => within⟩
    | none =>
      simp only [Option.any_none, Bool.false_eq_true, false_iff]
      rintro ⟨height, _, high⟩
      exact sound.refused type known height high
  | none =>
    have found := measure_answered 0 type sound.unmarked (Nat.le_refl (limit + 1)) (by simp)
    rw [evaluate_unknown known]
    refine ⟨?_, found.sound⟩
    have means := found.means
    cases outcome : (measure store (limit + 1) 0 { memo with truncated := false } type).1 with
    | some height =>
      rw [outcome] at means
      simp only [outcome, Option.isSome_some, true_iff]
      exact ⟨height, Nat.le_of_lt_succ means.2, means.1⟩
    | none =>
      rw [outcome] at means
      simp only [outcome, Option.isSome_none, Bool.false_eq_true, false_iff]
      rintro ⟨height, within, high⟩
      have := (means height high).1
      omega

end QueryAudit.Evaluability
