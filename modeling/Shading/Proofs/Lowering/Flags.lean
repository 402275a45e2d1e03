/-
Feature flags read back from their text. The text has a name for every named
flag that is set, and the remaining bits as one number, so reading unites
exactly the bits that were there, those without a name included.
-/

import Shading.Lowering.Profile
import Shading.Proofs.Json.Carrying
import Shading.Proofs.Text.Codes

namespace Shading.FeatureFlags

/-! ### Parts of a text -/

/-- A part of which reading loses nothing: it holds no bar and no blank. -/
def Clean (part : List Char) : Prop :=
  part ≠ [] ∧ ∀ char ∈ part, char ≠ '|' ∧ isBlank char = false

/-- Digits, letters and the underscore are no blanks. -/
theorem clean_of_marks {part : List Char} (some' : part ≠ [])
    (marks : ∀ char ∈ part, 0x30 ≤ char.toNat ∧ char.toNat ≤ 0x7A) : Clean part := by
  refine ⟨some', fun char member => ?_⟩
  obtain ⟨lower, upper⟩ := marks char member
  refine ⟨?_, ?_⟩
  · rintro rfl
    exact absurd upper (by decide)
  · simp only [isBlank, Bool.or_eq_false_iff, Bool.and_eq_false_iff, decide_eq_false_iff_not]
    omega

theorem dropWhile_clean {part blanks : List Char} (clean : Clean part)
    (blank : ∀ char ∈ blanks, isBlank char = true) (rest : List Char) :
    (blanks ++ (part ++ rest)).dropWhile isBlank = part ++ rest := by
  obtain ⟨some', marks⟩ := clean
  obtain ⟨first, others, rfl⟩ := List.exists_cons_of_ne_nil some'
  rw [List.dropWhile_append_of_pos blank, List.cons_append, List.dropWhile_cons_of_neg]
  rw [(marks first List.mem_cons_self).2]
  exact Bool.false_ne_true

theorem Clean.reverse {part : List Char} (clean : Clean part) : Clean part.reverse :=
  ⟨fun none' => clean.1 (List.reverse_eq_nil_iff.mp none'),
    fun char member => clean.2 char (List.mem_reverse.mp member)⟩

theorem trim_clean {part before after : List Char} (clean : Clean part)
    (blankBefore : ∀ char ∈ before, isBlank char = true)
    (blankAfter : ∀ char ∈ after, isBlank char = true) :
    trim (before ++ (part ++ after)) = part := by
  have back := dropWhile_clean clean.reverse
    (fun char member => blankAfter char (List.mem_reverse.mp member)) []
  rw [List.append_nil] at back
  rw [trim, dropWhile_clean clean blankBefore, List.reverse_append, back, List.reverse_reverse]

theorem split_whole {chars : List Char} (unbarred : ∀ char ∈ chars, char ≠ '|') :
    split chars = [chars] := by
  induction chars with
  | nil => rfl
  | cons char chars inductionHypothesis =>
    obtain ⟨first, others⟩ := List.forall_mem_cons.mp unbarred
    rw [split, if_neg first, inductionHypothesis others]

theorem split_bar {chars : List Char} (unbarred : ∀ char ∈ chars, char ≠ '|')
    (rest : List Char) : split (chars ++ '|' :: rest) = chars :: split rest := by
  induction chars with
  | nil => rfl
  | cons char chars inductionHypothesis =>
    obtain ⟨first, others⟩ := List.forall_mem_cons.mp unbarred
    rw [List.cons_append, split, if_neg first, inductionHypothesis others]

/-- Signs that surround a part. -/
def Blanks (chars : List Char) : Prop := ∀ char ∈ chars, char = ' '

theorem Blanks.isBlank {chars : List Char} (blanks : Blanks chars) :
    ∀ char ∈ chars, isBlank char = true :=
  fun char member => blanks char member ▸ rfl

theorem unbarred_append {left right : List Char} (unbarredLeft : ∀ char ∈ left, char ≠ '|')
    (unbarredRight : ∀ char ∈ right, char ≠ '|') : ∀ char ∈ left ++ right, char ≠ '|' :=
  fun char member => (List.mem_append.mp member).elim (unbarredLeft char) (unbarredRight char)

theorem Blanks.unbarred {chars : List Char} (blanks : Blanks chars) :
    ∀ char ∈ chars, char ≠ '|' :=
  fun char member => blanks char member ▸ by decide

theorem Clean.unbarred {part : List Char} (clean : Clean part) : ∀ char ∈ part, char ≠ '|' :=
  fun char member => (clean.2 char member).1

theorem blanks_nil : Blanks [] := fun _ member => absurd member List.not_mem_nil

theorem blanks_one : Blanks [' '] := fun _ member => List.mem_singleton.mp member

/-- Parts joined by bars are what stands between the bars, apart from blanks. -/
theorem split_intercalate {part : List Char} {parts : List (List Char)} {before : List Char}
    (clean : ∀ other ∈ part :: parts, Clean other) (blanks : Blanks before) :
    (split (before ++ [' ', '|', ' '].intercalate (part :: parts))).map trim = part :: parts := by
  induction parts generalizing part before with
  | nil =>
    have first := clean part List.mem_cons_self
    have trimmed : trim (before ++ (part ++ [])) = part :=
      trim_clean first blanks.isBlank blanks_nil.isBlank
    rw [List.append_nil] at trimmed
    rw [List.intercalate_singleton, split_whole (unbarred_append blanks.unbarred first.unbarred),
      List.map_singleton, trimmed]
  | cons next parts inductionHypothesis =>
    obtain ⟨first, others⟩ := List.forall_mem_cons.mp clean
    have rest := inductionHypothesis others blanks_one
    have trimmed : trim (before ++ (part ++ [' '])) = part :=
      trim_clean first blanks.isBlank blanks_one.isBlank
    have cut : before ++ [' ', '|', ' '].intercalate (part :: next :: parts) =
        before ++ (part ++ [' ']) ++
          '|' :: ([' '] ++ [' ', '|', ' '].intercalate (next :: parts)) := by
      rw [List.intercalate_cons_cons]
      simp only [List.append_assoc, List.cons_append, List.nil_append]
    rw [cut, split_bar (unbarred_append blanks.unbarred
      (unbarred_append first.unbarred blanks_one.unbarred)), List.map_cons, trimmed, rest]

theorem trim_ne_nil {part : List Char} (clean : Clean part) (rest : List Char) :
    trim (part ++ rest) ≠ [] := by
  obtain ⟨some', marks⟩ := clean
  obtain ⟨first, others, rfl⟩ := List.exists_cons_of_ne_nil some'
  intro blank
  have kept := dropWhile_clean ⟨some', marks⟩ blanks_nil.isBlank rest
  rw [List.nil_append] at kept
  rw [trim, kept, List.reverse_eq_nil_iff, List.dropWhile_eq_nil_iff] at blank
  have := blank first (List.mem_reverse.mpr List.mem_cons_self)
  rw [(marks first List.mem_cons_self).2] at this
  cases this

theorem foldlM_trim (parts : List (List Char)) :
    parts.foldlM (fun (flags : FeatureFlags) part => (ofPart? (trim part)).map flags.union) {} =
      (parts.map trim).foldlM
        (fun (flags : FeatureFlags) part => (ofPart? part).map flags.union) {} := by
  rw [List.foldlM_map]

/-- The flags of a text are those of its parts. -/
theorem ofText?_intercalate {parts : List String} (clean : ∀ part ∈ parts, Clean part.toList) :
    ofText? (" | ".intercalate parts) =
      parts.foldlM (fun flags part => (ofPart? part.toList).map flags.union) {} := by
  unfold ofText?
  rw [String.toList_intercalate]
  cases parts with
  | nil => rfl
  | cons part parts =>
    have parted := split_intercalate
      (show ∀ other ∈ part.toList :: parts.map String.toList, Clean other from
        List.forall_mem_map.mpr clean) blanks_nil
    obtain ⟨rest, front⟩ : ∃ rest, [' ', '|', ' '].intercalate
        (part.toList :: parts.map String.toList) = part.toList ++ rest := by
      cases parts with
      | nil => exact ⟨[], by rw [List.map_nil, List.intercalate_singleton, List.append_nil]⟩
      | cons next parts =>
        exact ⟨_, by rw [List.map_cons, List.intercalate_cons_cons, List.append_assoc]⟩
    have nonempty := front ▸ trim_ne_nil (clean part List.mem_cons_self) rest
    rw [List.nil_append] at parted
    refine (if_neg nonempty).trans ?_
    refine (foldlM_trim _).trans ?_
    rw [show " | ".toList = [' ', '|', ' '] from rfl, List.map_cons, parted, ← List.map_cons,
      List.foldlM_map]

/-! ### Bits -/

/-- A word with a single bit. -/
def IsBit (word : UInt32) : Prop := ∃ place, word.toNat = 2 ^ place

theorem and_bit {word : UInt32} (bit : IsBit word) (bits : UInt32) :
    bits &&& word = word ∨ bits &&& word = 0 := by
  obtain ⟨place, number⟩ := bit
  have found := Nat.and_two_pow bits.toNat place
  rw [← number, ← UInt32.toNat_and] at found
  cases set : bits.toNat.testBit place with
  | false =>
    rw [set, Bool.toNat_false, Nat.zero_mul] at found
    exact .inr (UInt32.toNat_inj.mp found)
  | true =>
    rw [set, Bool.toNat_true, Nat.one_mul] at found
    exact .inl (UInt32.toNat_inj.mp found)

theorem and_or (bits left right : UInt32) :
    bits &&& (left ||| right) = bits &&& left ||| bits &&& right := by
  rw [← UInt32.toNat_inj]
  simp only [UInt32.toNat_and, UInt32.toNat_or]
  exact Nat.and_or_distrib_left _ _ _

/-- Uniting the flags of a list that are set gives the bits that the list has. -/
theorem bits_foldl_union (flags start : FeatureFlags) {entries : List (FeatureFlags × String)}
    (bits : ∀ entry ∈ entries, IsBit entry.1.bits) :
    ((entries.filter fun entry => flags.contains entry.1).foldl
      (fun united entry => united.union entry.1) start).bits =
        start.bits ||| flags.bits &&& entries.foldr (fun entry mask => entry.1.bits ||| mask) 0 := by
  induction entries generalizing start with
  | nil => exact (UInt32.or_zero.symm.trans (congrArg _ UInt32.and_zero.symm))
  | cons entry entries inductionHypothesis =>
    obtain ⟨bit, others⟩ := List.forall_mem_cons.mp bits
    rw [List.foldr_cons, and_or, ← UInt32.or_assoc]
    by_cases set : flags.contains entry.1
    · have bit : flags.bits &&& entry.1.bits = entry.1.bits := of_decide_eq_true set
      rw [List.filter_cons, if_pos set, List.foldl_cons, inductionHypothesis _ others, bit]
      rfl
    · have unset : flags.bits &&& entry.1.bits = 0 :=
        (and_bit bit flags.bits).resolve_left fun same => set (decide_eq_true same)
      rw [List.filter_cons, if_neg set, inductionHypothesis _ others, unset, UInt32.or_zero]

/-! ### The text -/

theorem isBit_of_mem_names : ∀ entry ∈ names, IsBit entry.1.bits := by
  simp only [names, List.forall_mem_cons]
  exact ⟨⟨0, rfl⟩, ⟨1, rfl⟩, ⟨2, rfl⟩, ⟨3, rfl⟩, ⟨4, rfl⟩, ⟨5, rfl⟩, ⟨6, rfl⟩, ⟨7, rfl⟩,
    ⟨8, rfl⟩, fun _ member => absurd member List.not_mem_nil⟩

theorem mask_names : names.foldr (fun entry mask => entry.1.bits ||| mask) 0 = 0x1FF := by
  decide

theorem clean_names : ∀ entry ∈ names, Clean entry.2.toList := by
  intro entry member
  have all : names.all (fun entry => entry.2.toList ≠ [] && entry.2.toList.all fun char =>
    0x30 ≤ char.toNat && char.toNat ≤ 0x7A) = true := by decide
  have marks := List.all_eq_true.mp all entry member
  rw [Bool.and_eq_true_iff, decide_eq_true_eq, List.all_eq_true] at marks
  exact clean_of_marks marks.1 fun char inside => by simpa using marks.2 char inside

theorem ofPart?_names : ∀ entry ∈ names, ofPart? entry.2.toList = some entry.1 := by
  decide

theorem text_number (value : Nat) :
    ("0x" ++ Hex.ofNat value).toList = '0' :: 'x' :: Nat.toDigits 16 value := by
  have digits : (Hex.ofNat value).toList = Nat.toDigits 16 value := String.toList_ofList
  rw [String.toList_append, digits]
  rfl

theorem ofPart?_number (bits : UInt32) :
    ofPart? ("0x" ++ Hex.ofNat bits.toNat).toList = some ⟨bits⟩ := by
  have read : Hex.read? (String.ofList (Nat.toDigits 16 bits.toNat)) UInt32.size =
      some bits.toNat :=
    Hex.read?_ofList Nat.toDigits_ne_nil (Hex.plus_not_mem_toDigits _) (Hex.value?_toDigits _)
      bits.toNat_lt
  rw [text_number, ofPart?, read, Option.map_some, UInt32.ofNat_toNat]

theorem marks_toDigits (value : Nat) :
    ∀ char ∈ Nat.toDigits 16 value, 0x30 ≤ char.toNat ∧ char.toNat ≤ 0x7A := by
  have digits : ∀ value < 16, 0x30 ≤ value.digitChar.toNat ∧ value.digitChar.toNat ≤ 0x7A := by
    decide
  induction value using Nat.strong_induction_on with
  | _ value inductionHypothesis =>
    by_cases single : value < 16
    · rw [Nat.toDigits_of_lt_base single]
      exact fun char member => List.mem_singleton.mp member ▸ digits value single
    · rw [Nat.toDigits_of_base_le (by decide) (by omega)]
      intro char member
      rcases List.mem_append.mp member with front | last
      · exact inductionHypothesis _ (by omega) char front
      · exact List.mem_singleton.mp last ▸ digits _ (Nat.mod_lt _ (by decide))

theorem clean_number (value : Nat) : Clean ("0x" ++ Hex.ofNat value).toList := by
  rw [text_number]
  refine clean_of_marks (List.cons_ne_nil _ _) ?_
  simp only [List.forall_mem_cons]
  exact ⟨by decide, by decide, marks_toDigits value⟩

theorem foldlM_named {entries : List (FeatureFlags × String)}
    (named : ∀ entry ∈ entries, entry ∈ names) (start : FeatureFlags) :
    (entries.map Prod.snd).foldlM
      (fun (flags : FeatureFlags) part => (ofPart? part.toList).map flags.union) start =
        some (entries.foldl (fun united entry => united.union entry.1) start) := by
  induction entries generalizing start with
  | nil => rfl
  | cons entry entries inductionHypothesis =>
    obtain ⟨first, others⟩ := List.forall_mem_cons.mp named
    rw [List.map_cons, List.foldlM_cons, ofPart?_names entry first]
    exact inductionHypothesis others _

theorem foldlM_unnamed (flags united : FeatureFlags) :
    (if flags.unnamed = 0 then [] else ["0x" ++ Hex.ofNat flags.unnamed.toNat]).foldlM
      (fun (flags : FeatureFlags) part => (ofPart? part.toList).map flags.union) united =
        some (united.union ⟨flags.unnamed⟩) := by
  split
  · rename_i none'
    rw [none', union, UInt32.or_zero]
    rfl
  · rw [List.foldlM_cons, ofPart?_number]
    rfl

/-- The text of flags is read as these flags, the bits without a name among them. -/
theorem ofText?_text (flags : FeatureFlags) : ofText? flags.text = some flags := by
  have named : ∀ entry ∈ names.filter fun entry => flags.contains entry.1, entry ∈ names :=
    fun entry member => List.mem_of_mem_filter member
  have clean : ∀ part ∈ flags.parts, Clean part.toList := by
    intro part member
    rcases List.mem_append.mp member with member | member
    · obtain ⟨entry, inside, rfl⟩ := List.mem_map.mp member
      exact clean_names entry (named entry inside)
    · split at member
      · cases member
      · exact List.mem_singleton.mp member ▸ clean_number _
  have bits := bits_foldl_union flags {} isBit_of_mem_names
  rw [mask_names] at bits
  rw [text, ofText?_intercalate clean, parts, List.foldlM_append, foldlM_named named]
  refine (foldlM_unnamed flags _).trans (congrArg some ?_)
  rw [union, bits, UInt32.zero_or, unnamed, ← and_or]
  exact congrArg FeatureFlags.mk UInt32.and_neg_one

theorem carries (flags : FeatureFlags) : Json.Carries decode flags.encode flags True :=
  (Json.Carries.text _).bind (ofText?_text flags)

end Shading.FeatureFlags
