/-
What a document carries. A document carries a value to a decoder if it can be
read from text, and the decoder finds the value in it wherever as many levels
may be opened as the document has. Some values do not survive, and for those
the decoder finds nothing, however many levels it may open. The lemmas below
put documents together from parts that carry their values.
-/

import Shading.Json.Decoder
import Shading.Proofs.Json.Reading

namespace Shading

/-- The text of a number, read on its own, gives the number. -/
def Binary32.Returns (number : Binary32) : Prop :=
  Json.decode? Json.asSingle (Utf8.encode (Json.single number).render) = some number

instance (number : Binary32) : Decidable number.Returns :=
  inferInstanceAs (Decidable (_ = _))

namespace Json

/-! ### Levels -/

mutual

/-- How many arrays and objects are open at the deepest point of a document. -/
def nesting : Json → Nat
  | .array items => nestingOfItems items + 1
  | .object members => nestingOfMembers members + 1
  | _ => 0

def nestingOfItems : List Json → Nat
  | [] => 0
  | item :: items => max item.nesting (nestingOfItems items)

def nestingOfMembers : List (Option String × Json) → Nat
  | [] => 0
  | (_, value) :: members => max value.nesting (nestingOfMembers members)

end

theorem nesting_le_of_item {items : List Json} {levels : Nat}
    (fits : (array items).nesting ≤ levels + 1) : ∀ item ∈ items, item.nesting ≤ levels := by
  rw [nesting] at fits
  replace fits := Nat.le_of_succ_le_succ fits
  induction items with
  | nil =>
    intro item member
    cases member
  | cons item items inductionHypothesis =>
    rw [nestingOfItems] at fits
    exact List.forall_mem_cons.mpr ⟨(Nat.le_max_left _ _).trans fits,
      inductionHypothesis ((Nat.le_max_right _ _).trans fits)⟩

theorem nestingOfItems_le {items : List Json} {levels : Nat}
    (fit : ∀ item ∈ items, item.nesting ≤ levels) : nestingOfItems items ≤ levels := by
  induction items with
  | nil => exact Nat.zero_le _
  | cons item items inductionHypothesis =>
    obtain ⟨here, there⟩ := List.forall_mem_cons.mp fit
    exact Nat.max_le.mpr ⟨here, inductionHypothesis there⟩

theorem nesting_le_of_member {members : List (String × Json)} {levels : Nat}
    (fits : (record members).nesting ≤ levels + 1) :
    ∀ member ∈ members, member.2.nesting ≤ levels := by
  rw [record, nesting] at fits
  replace fits := Nat.le_of_succ_le_succ fits
  induction members with
  | nil =>
    intro member inside
    cases inside
  | cons member members inductionHypothesis =>
    rw [List.map_cons, nestingOfMembers] at fits
    exact List.forall_mem_cons.mpr ⟨(Nat.le_max_left _ _).trans fits,
      inductionHypothesis ((Nat.le_max_right _ _).trans fits)⟩

theorem exists_levels {document : Json} {levels : Nat} (fits : document.nesting ≤ levels)
    (deep : 0 < document.nesting) : ∃ less, levels = less + 1 :=
  ⟨levels - 1, by omega⟩

/-! ### Carrying -/

/-- The document carries the value to the decoder, provided that the value survives. -/
structure Carries {α : Type} (decoder : Decoder α) (document : Json) (value : α)
    (survives : Prop) : Prop where
  readable : document.Readable
  restores : survives → ∀ levels, document.nesting ≤ levels →
    decoder (some levels) document = some value
  refuses : ¬ survives → ∀ depth, decoder depth document = none

namespace Carries

variable {α β : Type} {decoder : Decoder α} {document : Json} {value : α} {survives : Prop}

/-- Read from its text, the document gives its value if it survives. -/
theorem decode?_render (carries : Carries decoder document value survives)
    (fits : document.nesting ≤ 127) (alive : survives) :
    decode? decoder (Utf8.encode document.render) = some value := by
  rw [decode?, read?_render carries.readable]
  exact carries.restores alive 127 fits

theorem decode?_render_none (carries : Carries decoder document value survives)
    (dead : ¬ survives) : decode? decoder (Utf8.encode document.render) = none := by
  rw [decode?, read?_render carries.readable]
  exact carries.refuses dead _

/-- For values that always survive it is enough to find them. -/
theorem of_restores (readable : document.Readable)
    (restores : ∀ levels, document.nesting ≤ levels → decoder (some levels) document = some value) :
    Carries decoder document value True :=
  ⟨readable, fun _ => restores, fun dead => absurd trivial dead⟩

theorem congr {survives' : Prop} (carries : Carries decoder document value survives)
    (same : survives ↔ survives') : Carries decoder document value survives' :=
  propext same ▸ carries

/-- Decoders that agree on a document are carried the same value. -/
theorem of_eq {decoder' : Decoder α} (carries : Carries decoder document value survives)
    (same : ∀ depth, decoder' depth document = decoder depth document) :
    Carries decoder' document value survives where
  readable := carries.readable
  restores alive levels fits := (same _).trans (carries.restores alive levels fits)
  refuses dead depth := (same _).trans (carries.refuses dead depth)

/-- What is made of a value comes back with it. -/
theorem map (carries : Carries decoder document value survives) (make : α → β) :
    Carries (fun depth document => (decoder depth document).map make) document (make value)
      survives where
  readable := carries.readable
  restores alive levels fits := congrArg _ (carries.restores alive levels fits)
  refuses dead depth := congrArg _ (carries.refuses dead depth)

/-! ### Plain values -/

theorem text (text : String) : Carries asText (.text text) text True :=
  of_restores rfl fun _ _ => rfl

theorem word (word : UInt32) : Carries asWord (.natural word.toNat) word True :=
  of_restores (Literal.isNumeral_ofNat _) fun _ _ =>
    (congrArg _ (Literal.natural?_ofNat word.toNat_lt (by decide))).trans
      (congrArg some UInt32.ofNat_toNat)

theorem longWord (word : UInt64) : Carries asLongWord (.natural word.toNat) word True :=
  of_restores (Literal.isNumeral_ofNat _) fun _ _ =>
    (congrArg _ (Literal.natural?_ofNat word.toNat_lt (Nat.le_refl _))).trans
      (congrArg some UInt64.ofNat_toNat)

/-- Single-precision numbers that are no finite numbers are written as null and are lost. -/
theorem single {single : Binary32} (returns : single.isFinite → single.Returns) :
    Carries asSingle (.single single) single single.isFinite := by
  unfold Json.single
  split
  · rename_i finite
    have readable : (number (numberLayout.literal single)).Readable :=
      Layout.isNumeral_literal _ _
    refine ⟨readable, fun _ levels _ => ?_, fun dead => absurd finite dead⟩
    have returns := returns finite
    rw [Binary32.Returns, Json.single, if_pos finite, decode?, read?_render readable] at returns
    exact returns
  · rename_i infinite
    exact ⟨trivial, fun alive => absurd alive infinite, fun _ _ => rfl⟩

/-- A value found through its text. -/
theorem bind {document : Json} {text : String} {value : β} {find : String → Option β}
    (carries : Carries asText document text True) (found : find text = some value) :
    Carries (fun depth document => (asText depth document).bind find) document value True :=
  of_restores carries.readable fun levels fits => by
    rw [carries.restores trivial levels fits]
    exact found

theorem named {value : β} {name : String} {find : String → Option β}
    (found : find name = some value) : Carries (asNamed find) (.text name) value True :=
  of_restores rfl fun _ _ => found

/-! ### Options, lists and pairs -/

theorem option {encode : α → Json} {value : Option α}
    (carries : ∀ inside ∈ value, Carries decoder (encode inside) inside True)
    (present : ∀ inside, encode inside ≠ .null) :
    Carries (asOption decoder) (.option (value.map encode)) value True := by
  cases value with
  | none => exact of_restores trivial fun _ _ => rfl
  | some inside =>
    have carried := carries inside rfl
    refine of_restores carried.readable fun levels fits => ?_
    show asOption decoder (some levels) (encode inside) = some (some inside)
    have found := carried.restores trivial levels fits
    unfold asOption
    split
    · rename_i null
      exact absurd null (present inside)
    · rw [found]
      rfl

theorem list {encode : α → Json} {values : List α} {survives : α → Prop}
    (carries : ∀ value ∈ values, Carries decoder (encode value) value (survives value)) :
    Carries (asList decoder) (.array (values.map encode)) values
      (∀ value ∈ values, survives value) where
  readable := readable_array (List.forall_mem_map.mpr fun value member =>
    (carries value member).readable)
  restores alive levels fits := by
    obtain ⟨levels, rfl⟩ := exists_levels fits (Nat.succ_pos _)
    have inside := List.forall_mem_map.mp (nesting_le_of_item fits)
    show (values.map encode).mapM (decoder (some levels)) = some values
    clear fits
    induction values with
    | nil => rfl
    | cons value values inductionHypothesis =>
      obtain ⟨first, others⟩ := List.forall_mem_cons.mp carries
      obtain ⟨lives, live⟩ := List.forall_mem_cons.mp alive
      obtain ⟨fits, fit⟩ := List.forall_mem_cons.mp inside
      rw [List.map_cons, List.mapM_cons, first.restores lives levels fits,
        inductionHypothesis others live fit]
      rfl
  refuses dead depth := by
    show ((depth.enter).bind fun depth => (values.map encode).mapM (decoder depth)) = none
    cases depth.enter with
    | none => rfl
    | some depth =>
      show (values.map encode).mapM (decoder depth) = none
      induction values with
      | nil => exact absurd (fun value member => absurd member List.not_mem_nil) dead
      | cons value values inductionHypothesis =>
        obtain ⟨first, others⟩ := List.forall_mem_cons.mp carries
        rw [List.map_cons, List.mapM_cons]
        by_cases lives : survives value
        · have dead : ¬ ∀ value ∈ values, survives value :=
            fun live => dead (List.forall_mem_cons.mpr ⟨lives, live⟩)
          rw [inductionHypothesis others dead]
          cases decoder depth (encode value) <;> rfl
        · rw [first.refuses lives]
          rfl

/-- What always survives may stand in a list. -/
theorem all {encode : α → Json} (values : List α)
    (carries : ∀ value, Carries decoder (encode value) value True) :
    Carries (asList decoder) (.array (values.map encode)) values True :=
  (Carries.list fun value _ => carries value).congr ⟨fun _ => trivial, fun _ _ _ => trivial⟩

theorem pair {first : Decoder α} {second : Decoder β} {left right : Json} {value : α}
    {other : β} (carriesLeft : Carries first left value True)
    (carriesRight : Carries second right other True) :
    Carries (asPair first second) (.array [left, right]) (value, other) True := by
  refine of_restores (readable_array ?_) fun levels fits => ?_
  · simp only [List.forall_mem_cons]
    exact ⟨carriesLeft.readable, carriesRight.readable, fun _ member => by cases member⟩
  · obtain ⟨levels, rfl⟩ := exists_levels fits (Nat.succ_pos _)
    have inside := nesting_le_of_item fits
    show ((first (some levels) left).bind fun value => (second (some levels) right).bind fun other =>
      some (value, other)) = _
    rw [carriesLeft.restores trivial levels (inside left (by simp)),
      carriesRight.restores trivial levels (inside right (by simp))]
    rfl

end Carries

/-! ### Records -/

theorem knownMembers_map {names : List String} {members : List (String × Json)}
    (distinct : (members.map Prod.fst).Nodup) (known : ∀ member ∈ members, member.1 ∈ names) :
    knownMembers names (members.map fun member => (some member.1, member.2)) = some members := by
  induction members with
  | nil => rfl
  | cons member members inductionHypothesis =>
    obtain ⟨here, there⟩ := List.forall_mem_cons.mp known
    rw [List.map_cons, List.nodup_cons] at distinct
    have unseen : members.lookup member.1 = none := by
      refine List.lookup_eq_none_iff.mpr fun other inside => ?_
      exact bne_iff_ne.mpr fun same => distinct.1 (same ▸ List.mem_map_of_mem inside)
    rw [List.map_cons, knownMembers, inductionHypothesis distinct.2 there]
    show (if member.1 ∈ names then if (members.lookup member.1).isSome then none else
      some (member :: members) else some members) = _
    rw [if_pos here, unseen]
    rfl

theorem asFields_record {names : List String} {members : List (String × Json)}
    (named : members.map Prod.fst = names) (distinct : names.Nodup) (partly : Bool)
    (depth : Depth) :
    asFields names partly depth (record members) =
      depth.enter.map fun depth => ⟨depth, members⟩ := by
  have known := knownMembers_map (named ▸ distinct) fun member inside =>
    named ▸ List.mem_map_of_mem inside
  show ((depth.enter).bind fun depth => (knownMembers names (members.map fun member =>
    (some member.1, member.2))).bind fun members => some (Fields.mk depth members)) = _
  rw [known]
  cases depth.enter <;> rfl

theorem mem_of_lookup {members : List (String × Json)} {name : String} {document : Json}
    (found : members.lookup name = some document) : ∃ member ∈ members, member.2 = document := by
  obtain ⟨before, after, rfl, -⟩ := List.lookup_eq_some_iff.mp found
  exact ⟨(name, document), by simp, rfl⟩

namespace Carries

variable {α : Type} {decoder : Decoder α} {document : Json} {value : α} {survives : Prop}
  {members : List (String × Json)} {name : String}

theorem required (carries : Carries decoder document value survives) (alive : survives)
    {levels : Nat} (fits : ∀ member ∈ members, member.2.nesting ≤ levels)
    (found : members.lookup name = some document) :
    Fields.required ⟨some levels, members⟩ name decoder = some value := by
  obtain ⟨member, inside, rfl⟩ := mem_of_lookup found
  rw [Fields.required, found]
  exact carries.restores alive levels (fits member inside)

theorem required_none (carries : Carries decoder document value survives) (dead : ¬ survives)
    (depth : Depth) (found : members.lookup name = some document) :
    Fields.required ⟨depth, members⟩ name decoder = none := by
  rw [Fields.required, found]
  exact carries.refuses dead depth

theorem optional {value : Option α} (carries : Carries (asOption decoder) document value True)
    {levels : Nat} (fits : ∀ member ∈ members, member.2.nesting ≤ levels)
    (found : members.lookup name = some document) :
    Fields.optional ⟨some levels, members⟩ name decoder = some value := by
  obtain ⟨member, inside, rfl⟩ := mem_of_lookup found
  rw [Fields.optional, found]
  exact carries.restores trivial levels (fits member inside)

end Carries

/-- A record carries its value if what reads its members does. -/
theorem Carries.record {α : Type} {names : List String} {members : List (String × Json)}
    {value : α} {survives : Prop} {body : Fields → Option α}
    (named : members.map Prod.fst = names) (distinct : names.Nodup)
    (readable : ∀ member ∈ members, member.2.Readable)
    (restores : survives → ∀ levels, (∀ member ∈ members, member.2.nesting ≤ levels) →
      body ⟨some levels, members⟩ = some value)
    (refuses : ¬ survives → ∀ depth, body ⟨depth, members⟩ = none) :
    Carries (fun depth document => (asFields names false depth document).bind body)
      (.record members) value survives where
  readable := readable_record readable
  restores alive levels fits := by
    obtain ⟨levels, rfl⟩ := exists_levels fits (Nat.succ_pos _)
    rw [asFields_record named distinct]
    exact restores alive levels (nesting_le_of_member fits)
  refuses dead depth := by
    rw [asFields_record named distinct]
    cases depth.enter with
    | none => rfl
    | some depth => exact refuses dead depth

end Json

end Shading
