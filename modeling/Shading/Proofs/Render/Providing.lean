/-
Which producer answers for a texture. The index from textures to producers has
one place for each texture. Whoever is created last takes the place, and leaves
it only when it is destroyed itself; nobody who was there before comes back. So
what happened decides who answers: the producer that was created last for the
texture, as long as it lives.
-/

import Mathlib
import Shading.Proofs.Render.Streams

namespace Shading.Streaming

variable {streaming next : Streaming} {id other : ProducerId} {texture : TextureId}

/-! ### Calls -/

/-- What can be done with streaming textures from outside. -/
inductive Call where
  | create (id : ProducerId) (texture : TextureId) (tile border : UInt32) (preallocates : Bool)
  | destroy (id : ProducerId)
  | subscribe (id : ProducerId) (proxy : ProxyId)
  | unsubscribe (id : ProducerId) (proxy : ProxyId)
  | unsubscribeAll (proxy : ProxyId)
  | allocate (layers : List (Option ProducerId))
  | free (allocation : AllocationId)
deriving DecidableEq

namespace Call

def carryOut (streaming : Streaming) : Call → Except Fault Streaming
  | .create id texture tile border preallocates =>
    .ok (streaming.createProducer id texture tile border preallocates)
  | .destroy id => .ok (streaming.destroyProducer id).2
  | .subscribe id proxy => .ok (streaming.subscribe id proxy)
  | .unsubscribe id proxy => .ok (streaming.unsubscribe id proxy)
  | .unsubscribeAll proxy => .ok (streaming.unsubscribeAll proxy)
  | .allocate layers => (streaming.allocate layers).map Prod.snd
  | .free allocation => .ok (streaming.free allocation)

/-- The producer that a call creates, and its texture. -/
def creates? : Call → Option (ProducerId × TextureId)
  | .create id texture _ _ _ => some (id, texture)
  | _ => none

/-- The producers created, in order. -/
def createdBy (calls : List Call) : List ProducerId :=
  calls.flatMap fun call => (call.creates?.map Prod.fst).toList

def carryOutAll (calls : List Call) : Except Fault Streaming :=
  calls.foldlM carryOut {}

/-! ### What has happened -/

/-- Among the calls is one of a kind that no later call puts an end to. -/
def Since (starts ends : Call → Prop) (calls : List Call) : Prop :=
  ∃ before call after, calls = before ++ call :: after ∧ starts call ∧
    ∀ later ∈ after, ¬ ends later

theorem since_concat {starts ends : Call → Prop} {calls : List Call} {call : Call} :
    Since starts ends (calls ++ [call]) ↔ starts call ∨ Since starts ends calls ∧ ¬ ends call := by
  constructor
  · rintro ⟨before, first, after, split, here, rest⟩
    rcases after.eq_nil_or_concat with rfl | ⟨between, last, rfl⟩
    · rw [← List.append_eq] at split
      obtain ⟨_, same⟩ := List.append_inj' split rfl
      cases same
      exact .inl here
    · rw [List.concat_eq_append, ← List.cons_append, ← List.append_assoc] at split
      obtain ⟨same, single⟩ := List.append_inj' split rfl
      cases single
      rw [List.concat_eq_append, List.forall_mem_append] at rest
      exact .inr ⟨⟨before, first, between, same, here, rest.1⟩, rest.2 _ List.mem_cons_self⟩
  · rintro (here | ⟨⟨before, first, after, rfl, here, rest⟩, last⟩)
    · exact ⟨calls, call, [], rfl, here, fun _ none => absurd none List.not_mem_nil⟩
    · refine ⟨before, first, after ++ [call], by simp, here, ?_⟩
      exact List.forall_mem_append.mpr ⟨rest, by simpa using last⟩

/-- The producer was created for the texture and has not been destroyed since. -/
def Lives (id : ProducerId) (texture : TextureId) : List Call → Prop :=
  Since (fun call => call.creates? = some (id, texture)) fun call => call = .destroy id

/-- The producer was created for the texture, and none has been created for it since. -/
def Newest (id : ProducerId) (texture : TextureId) : List Call → Prop :=
  Since (fun call => call.creates? = some (id, texture)) fun call =>
    call.creates?.map Prod.snd = some texture

section

variable {calls : List Call} {id other : ProducerId} {texture its : TextureId}

theorem lives_create {tile border : UInt32} {preallocates : Bool} :
    Lives other its (calls ++ [.create id texture tile border preallocates]) ↔
      (other = id ∧ its = texture) ∨ Lives other its calls := by
  unfold Lives
  rw [since_concat]
  simp [creates?, eq_comm]

theorem newest_create {tile border : UInt32} {preallocates : Bool} :
    Newest other its (calls ++ [.create id texture tile border preallocates]) ↔
      if its = texture then other = id else Newest other its calls := by
  unfold Newest
  rw [since_concat]
  by_cases same : its = texture
  · simp [creates?, same, eq_comm]
  · simp [creates?, same, Ne.symm same]

theorem lives_destroy : Lives other its (calls ++ [.destroy id]) ↔
    Lives other its calls ∧ other ≠ id := by
  unfold Lives
  rw [since_concat]
  simp [creates?, eq_comm]

theorem lives_quiet {call : Call} (creates : call.creates? = none)
    (destroys : ∀ id, call ≠ .destroy id) :
    Lives id texture (calls ++ [call]) ↔ Lives id texture calls := by
  unfold Lives
  rw [since_concat, creates]
  simp [destroys id]

theorem newest_quiet {call : Call} (creates : call.creates? = none) :
    Newest id texture (calls ++ [call]) ↔ Newest id texture calls := by
  unfold Newest
  rw [since_concat, creates]
  simp

/-- Whoever has lived was created. -/
theorem Lives.mem_createdBy (lives : Lives id texture calls) : id ∈ createdBy calls := by
  obtain ⟨before, call, after, rfl, creates, _⟩ := lives
  refine List.mem_flatMap.mpr ⟨call, by simp, ?_⟩
  rw [creates]
  exact List.mem_singleton.mpr rfl

end

end Call

/-! ### What a call does -/

/-- The texture of a producer that is there. -/
def textureOf (streaming : Streaming) (id : ProducerId) : Option TextureId :=
  (streaming.producers.get? id).map StreamingProducer.texture

theorem textureOf_eq_some : streaming.textureOf id = some texture ↔
    ∃ producer, streaming.producers.get? id = some producer ∧ producer.texture = texture :=
  Option.map_eq_some_iff

theorem textureOf_createProducer (tile border : UInt32) (preallocates : Bool) :
    (streaming.createProducer id texture tile border preallocates).textureOf other =
      if other = id then some texture else streaming.textureOf other := by
  unfold textureOf
  rw [createProducer_producers, Table.get?_insert]
  split <;> rfl

theorem producerFor_createProducer {its : TextureId} (tile border : UInt32)
    (preallocates : Bool) :
    (streaming.createProducer id texture tile border preallocates).producerFor its =
      if its = texture then some id else streaming.producerFor its := by
  unfold producerFor
  rw [createProducer_byTexture, Table.get?_insert]

theorem textureOf_destroyProducer :
    (streaming.destroyProducer id).2.textureOf other =
      if other = id then none else streaming.textureOf other := by
  unfold textureOf
  cases found : streaming.producers.get? id with
  | none =>
    rw [destroyProducer_absent found]
    split
    · rename_i same
      rw [same, found]
      rfl
    · rfl
  | some producer =>
    rw [destroyProducer_eq found, Table.get?_erase]
    split <;> rfl

/-- A producer that is destroyed no longer answers for its texture, and nobody takes its place. -/
theorem producerFor_destroyProducer
    (genuine : ∀ texture, streaming.producerFor texture = some id →
      streaming.textureOf id = some texture) :
    (streaming.destroyProducer id).2.producerFor texture =
      if streaming.producerFor texture = some id then none else streaming.producerFor texture := by
  cases found : streaming.producers.get? id with
  | none =>
    have elsewhere : streaming.producerFor texture ≠ some id := fun answers => by
      obtain ⟨producer, there, _⟩ := textureOf_eq_some.mp (genuine texture answers)
      rw [found] at there
      cases there
    rw [if_neg elsewhere, destroyProducer_absent found]
  | some producer =>
    rw [destroyProducer_eq found]
    show Table.get? (if streaming.producerFor producer.texture = some id then _ else _) texture = _
    by_cases same : texture = producer.texture
    · subst same
      split
      · rw [Table.get?_erase, if_pos rfl]
      · rfl
    · have elsewhere : streaming.producerFor texture ≠ some id := fun answers => by
        obtain ⟨_, there, rfl⟩ := textureOf_eq_some.mp (genuine texture answers)
        rw [found] at there
        cases there
        exact same rfl
      rw [if_neg elsewhere]
      split
      · rw [Table.get?_erase, if_neg same]
        rfl
      · rfl

/-! ### What the calls so far have left -/

/-- The tables say of the producers what the calls have made of them. -/
structure Follows (calls : List Call) (streaming : Streaming) : Prop where
  lives : ∀ id texture, streaming.textureOf id = some texture ↔ Call.Lives id texture calls
  answers : ∀ id texture, streaming.producerFor texture = some id ↔
    Call.Newest id texture calls ∧ Call.Lives id texture calls

namespace Follows

variable {calls : List Call}

theorem genuine (follows : Follows calls streaming)
    (answers : streaming.producerFor texture = some id) :
    streaming.textureOf id = some texture :=
  (follows.lives id texture).mpr ((follows.answers id texture).mp answers).2

/-- A call that neither creates nor destroys a producer. -/
theorem quiet {call : Call} (follows : Follows calls streaming) (creates : call.creates? = none)
    (destroys : ∀ id, call ≠ .destroy id) (textures : next.textureOf = streaming.textureOf)
    (index : next.producerFor = streaming.producerFor) : Follows (calls ++ [call]) next where
  lives := fun id texture => by
    rw [Call.lives_quiet creates destroys, textures, follows.lives]
  answers := fun id texture => by
    rw [Call.lives_quiet creates destroys, Call.newest_quiet creates, index, follows.answers]

theorem retold {call : Call} (follows : Follows calls streaming) (creates : call.creates? = none)
    (destroys : ∀ id, call ≠ .destroy id) (retold : Retold streaming next) :
    Follows (calls ++ [call]) next := by
  refine follows.quiet creates destroys (funext fun id => ?_) (funext fun texture => ?_)
  · have same := congrArg (Option.map StreamingProducer.texture) (congrFun retold.bare id)
    unfold bare at same
    rw [Option.map_map, Option.map_map] at same
    exact same
  · exact congrArg (Table.get? · texture) retold.byTexture

theorem create (follows : Follows calls streaming) (fresh : id ∉ Call.createdBy calls)
    (texture : TextureId) (tile border : UInt32) (preallocates : Bool) :
    Follows (calls ++ [.create id texture tile border preallocates])
      (streaming.createProducer id texture tile border preallocates) := by
  have never (its : TextureId) : ¬ Call.Lives id its calls := fun lives =>
    fresh lives.mem_createdBy
  refine ⟨fun other its => ?_, fun other its => ?_⟩
  · rw [Call.lives_create, textureOf_createProducer]
    split
    · rename_i here
      subst here
      simp [never its, eq_comm]
    · rename_i different
      rw [follows.lives]
      simp [different]
  · rw [Call.lives_create, Call.newest_create, producerFor_createProducer]
    split
    · rename_i here
      constructor
      · rintro ⟨⟩
        exact ⟨rfl, .inl ⟨rfl, here⟩⟩
      · exact fun both => congrArg some both.1.symm
    · rename_i different
      rw [follows.answers]
      simp [different]

theorem destroy (follows : Follows calls streaming) (id : ProducerId) :
    Follows (calls ++ [.destroy id]) (streaming.destroyProducer id).2 := by
  refine ⟨fun other its => ?_, fun other its => ?_⟩
  · rw [Call.lives_destroy, textureOf_destroyProducer]
    split
    · rename_i here
      simp [here]
    · rename_i different
      rw [follows.lives]
      simp [different]
  · rw [Call.lives_destroy, Call.newest_quiet rfl, ← and_assoc, ← follows.answers,
      producerFor_destroyProducer fun texture answers => follows.genuine answers]
    split
    · rename_i here
      simp [here, eq_comm]
    · rename_i elsewhere
      refine (and_iff_left_of_imp fun there => ?_).symm
      rintro rfl
      exact elsewhere there

/-- Every call leaves the tables in step with what has happened. -/
theorem carryOut {call : Call} (follows : Follows calls streaming)
    (fresh : ∀ id texture, call.creates? = some (id, texture) → id ∉ Call.createdBy calls)
    (ran : call.carryOut streaming = .ok next) : Follows (calls ++ [call]) next := by
  cases call with
  | create id texture tile border preallocates =>
    cases ran
    exact follows.create (fresh id texture rfl) texture tile border preallocates
  | destroy id =>
    cases ran
    exact follows.destroy id
  | subscribe id proxy =>
    cases ran
    exact follows.retold rfl nofun (Retold.subscribe streaming id proxy)
  | unsubscribe id proxy =>
    cases ran
    exact follows.retold rfl nofun (Retold.unsubscribe streaming id proxy)
  | unsubscribeAll proxy =>
    cases ran
    exact follows.retold rfl nofun (Retold.unsubscribeAll streaming proxy)
  | allocate layers =>
    obtain ⟨⟨allocation, left⟩, allocated, rfl⟩ := map_eq_ok.mp ran
    obtain ⟨content, same⟩ := allocate_eq_ok allocated
    cases same
    exact follows.quiet rfl nofun rfl rfl
  | free allocation =>
    cases ran
    exact follows.quiet rfl nofun rfl rfl

/-- So do all calls together, as long as no producer is created a second time. -/
theorem continued {later : List Call} (follows : Follows calls streaming)
    (once : (Call.createdBy (calls ++ later)).Nodup)
    (ran : later.foldlM Call.carryOut streaming = .ok next) : Follows (calls ++ later) next := by
  induction later generalizing calls streaming with
  | nil =>
    cases ran
    rw [List.append_nil]
    exact follows
  | cons call later inductionHypothesis =>
    obtain ⟨middle, carried, ran⟩ := bind_eq_ok.mp ran
    have fresh (id : ProducerId) (texture : TextureId)
        (creates : call.creates? = some (id, texture)) : id ∉ Call.createdBy calls := by
      unfold Call.createdBy at once ⊢
      rw [List.flatMap_append, List.nodup_append] at once
      refine fun before => once.2.2 id before id ?_ rfl
      rw [List.flatMap_cons, creates]
      exact List.mem_append_left _ (List.mem_singleton.mpr rfl)
    rw [List.append_cons] at once ⊢
    exact inductionHypothesis (follows.carryOut fresh carried) once ran

theorem start : Follows [] {} := by
  have nothing (starts ends : Call → Prop) : ¬ Call.Since starts ends [] := by
    rintro ⟨before, call, after, split, _⟩
    simp at split
  exact ⟨fun _ _ => ⟨nofun, fun lives => absurd lives (nothing _ _)⟩,
    fun _ _ => ⟨nofun, fun both => absurd both.1 (nothing _ _)⟩⟩

end Follows

/-! ### Who answers -/

/-- A producer answers for a texture just if it was created last for it and still lives. It is
then a live producer of that texture, and the live producers are those that were created and not
destroyed. So nobody answers for a texture without a live producer, and where somebody does not,
although there is one, the one created last has been destroyed before it. -/
theorem newest_answers {calls : List Call} (once : (Call.createdBy calls).Nodup)
    (ran : Call.carryOutAll calls = .ok streaming) (texture : TextureId) :
    (∀ id, streaming.producerFor texture = some id ↔
      Call.Newest id texture calls ∧ Call.Lives id texture calls) ∧
    (∀ id, (∃ producer, streaming.producers.get? id = some producer ∧
      producer.texture = texture) ↔ Call.Lives id texture calls) ∧
    (∀ id, streaming.producerFor texture = some id →
      ∃ producer, streaming.producers.get? id = some producer ∧ producer.texture = texture) ∧
    ((∀ id producer, streaming.producers.get? id = some producer → producer.texture ≠ texture) →
      streaming.producerFor texture = none) := by
  have follows : Follows calls streaming := Follows.start.continued once ran
  refine ⟨fun id => follows.answers id texture,
    fun id => textureOf_eq_some.symm.trans (follows.lives id texture),
    fun id answers => textureOf_eq_some.mp (follows.genuine answers), fun none => ?_⟩
  refine Option.eq_none_iff_forall_ne_some.mpr fun id answers => ?_
  obtain ⟨producer, there, same⟩ := textureOf_eq_some.mp (follows.genuine answers)
  exact none id producer there same

/-- Two producers for one texture, of which the first one goes away. -/
def overlapping : List Call :=
  [.create .first ⟨7⟩ 128 4 false, .create ⟨2⟩ ⟨7⟩ 128 4 false, .destroy .first]

theorem overlapping_answered : ∃ streaming, (Call.createdBy overlapping).Nodup ∧
    Call.carryOutAll overlapping = .ok streaming ∧
    streaming.producerFor ⟨7⟩ = some ⟨2⟩ ∧
    ∃ producer, streaming.producers.get? ⟨2⟩ = some producer ∧ producer.texture = ⟨7⟩ := by
  have once : (Call.createdBy overlapping).Nodup := by decide
  obtain ⟨streaming, ran⟩ : ∃ streaming, Call.carryOutAll overlapping = .ok streaming := ⟨_, rfl⟩
  obtain ⟨answers, _, live, _⟩ := newest_answers once ran ⟨7⟩
  have found : streaming.producerFor ⟨7⟩ = some ⟨2⟩ := (answers ⟨2⟩).mpr
    ⟨⟨overlapping.take 1, .create ⟨2⟩ ⟨7⟩ 128 4 false, overlapping.drop 2, rfl, rfl, by decide⟩,
      ⟨overlapping.take 1, .create ⟨2⟩ ⟨7⟩ 128 4 false, overlapping.drop 2, rfl, rfl, by decide⟩⟩
  exact ⟨streaming, once, ran, found, live ⟨2⟩ found⟩

/-- Two producers for one texture, of which the second one goes away. -/
def outlived : List Call :=
  [.create .first ⟨7⟩ 128 4 false, .create ⟨2⟩ ⟨7⟩ 128 4 false, .destroy ⟨2⟩]

/-- The first producer lives on, but nobody answers for its texture any more. -/
theorem outlived_unanswered : ∃ streaming, (Call.createdBy outlived).Nodup ∧
    Call.carryOutAll outlived = .ok streaming ∧
    (∃ producer, streaming.producers.get? .first = some producer ∧ producer.texture = ⟨7⟩) ∧
    streaming.producerFor ⟨7⟩ = none :=
  ⟨_, by decide, rfl, ⟨_, rfl, rfl⟩, rfl⟩

end Shading.Streaming
