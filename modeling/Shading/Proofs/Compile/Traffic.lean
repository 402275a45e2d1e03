/-
What goes on in a workshop while several calls are in progress. A request is
served in several moves: a compile is entered, its material is lowered, its jobs
are handed to the compiler one after another, and perhaps its result is waited
for. Between two moves of one call other calls may make theirs. A move is what
nothing can come between, and every operation is a sequence of moves, whatever
happens while it is under way.
-/

import Shading.Compile.Bench
import Shading.Proofs.Compile.Telling

namespace Shading

/-- What is noticed of compiles by those who take part in them. -/
inductive Notice where
  | joined (job : JobId) (resource : ResourceId)
  | cancelled (job : JobId) (resource : ResourceId)
  /-- Everything has been dropped. -/
  | closed
  /-- The material has been lowered, and these permutations are to be compiled. -/
  | expected (job : JobId) (permutations : List Permutation)
  | reported (job : JobId) (permutation : Permutation)
  | received (job : JobId) (resource : ResourceId) (result : Except CompileFailure SharedMap)

/-- Every resource of a finished compile receives its result. -/
def FinishedCompile.receipts (compile : FinishedCompile) : List Notice :=
  compile.resources.map fun resource => .received compile.job resource compile.result

/-- A request that is served at once waits for its job. -/
def CompileRequest.waits (request : CompileRequest) (job : JobId) : List (JobId × ResourceId) :=
  if request.synchronous then [(job, request.resource)] else []

/-- The requester of a compile that cannot be lowered is told so by the call it has made. That is
its result, if it still takes part. -/
def Manager.refusal (manager : Manager) (job : JobId) (requester : ResourceId)
    (error : LoweringError) : List Notice :=
  match manager.jobs.get? job with
  | none => []
  | some entry =>
    if requester ∈ entry.resources then [.received job requester (.error (.lowering error))]
    else []

/-- A workshop with the calls that are in progress: the requests whose materials are being
lowered, what has yet to be handed to the compiler, and who waits for a result. -/
structure Traffic where
  workshop : Workshop
  lowering : List (JobId × CompileRequest) := []
  due : List PermutationJob := []
  awaiting : List (JobId × ResourceId) := []

namespace Workshop

/-- Neither compiles nor what is on its way to them have changed. -/
structure Aside (workshop next : Workshop) : Prop where
  jobs : next.manager.jobs = workshop.manager.jobs
  byIdentity : next.manager.byIdentity = workshop.manager.byIdentity
  nextJob : next.manager.nextJob = workshop.manager.nextJob
  finished : next.manager.finished = workshop.manager.finished
  waiters : next.manager.waiters = workshop.manager.waiters
  inbox : next.manager.inbox = workshop.manager.inbox
  waiting : next.compiler.waiting = workshop.compiler.waiting

theorem Aside.flush (workshop : Workshop) : Aside workshop workshop.flush := by
  unfold Workshop.flush
  split <;> exact ⟨rfl, rfl, rfl, rfl, rfl, rfl, rfl⟩

def withInbox (workshop : Workshop) (inbox : List PermutationResult) : Workshop :=
  { workshop with manager := { workshop.manager with inbox } }

end Workshop

namespace Traffic

/-- One move and what is noticed of it, the latest first. -/
inductive Move : Traffic → List Notice → Traffic → Prop where
  /-- The compiler is replaced, the registry or the store is used, or the like. -/
  | aside {workshop next lowering due awaiting} : workshop.Aside next →
    Move ⟨workshop, lowering, due, awaiting⟩ [] ⟨next, lowering, due, awaiting⟩
  | begin {workshop lowering due awaiting} (request : CompileRequest) :
    workshop.manager.inFlight? request.identity = none →
    Move ⟨workshop, lowering, due, awaiting⟩ [.joined workshop.manager.nextJob request.resource]
      ⟨workshop.begun request, (workshop.manager.nextJob, request) :: lowering, due,
        request.waits workshop.manager.nextJob ++ awaiting⟩
  | join {workshop lowering due awaiting identity job} (resource : ResourceId) :
    workshop.manager.inFlight? identity = some job →
    Move ⟨workshop, lowering, due, awaiting⟩ [.joined job resource]
      ⟨{ workshop with manager := workshop.manager.join job resource }, lowering, due, awaiting⟩
  /-- The result of a compile in flight is going to be waited for. -/
  | wait {workshop lowering due awaiting identity job} (resource : ResourceId) :
    workshop.manager.inFlight? identity = some job →
    Move ⟨workshop, lowering, due, awaiting⟩ []
      ⟨{ workshop with manager := workshop.manager.addWaiter job resource }, lowering, due,
        (job, resource) :: awaiting⟩
  | abort {workshop after due last job request error} (before first) :
    request.variant.lower = .error error →
    Move ⟨workshop, before ++ (job, request) :: after, due, first ++ (request.waits job ++ last)⟩
      (workshop.manager.refusal job request.resource error)
      ⟨{ workshop with manager := workshop.manager.abort job request.resource error },
        before ++ after, due, first ++ last⟩
  | lowered {workshop next after due awaiting job request material} (held : List MapId) (before) :
    request.variant.lower = .ok material →
    workshop.lowered held job request.permutations material.profile = some next →
    Move ⟨workshop, before ++ (job, request) :: after, due, awaiting⟩
      [.expected job request.permutations]
      ⟨next, before ++ after, Workshop.permutationJobs request job material.source ++ due,
        awaiting⟩
  /-- Everybody has left a compile before its material was lowered. -/
  | vanished {workshop after due last job request material} (before first) :
    request.variant.lower = .ok material → workshop.manager.jobs.get? job = none →
    Move ⟨workshop, before ++ (job, request) :: after, due, first ++ (request.waits job ++ last)⟩ []
      ⟨workshop, before ++ after, due, first ++ last⟩
  | submit {workshop lowering after awaiting} (job : PermutationJob) (before) :
    Move ⟨workshop, lowering, before ++ job :: after, awaiting⟩ []
      ⟨workshop.submit job, lowering, before ++ after, awaiting⟩
  | release {workshop lowering due awaiting} (position : Option Nat) :
    Move ⟨workshop, lowering, due, awaiting⟩ []
      ⟨(workshop.release position).2, lowering, due, awaiting⟩
  /-- The first result in the inbox is taken in. -/
  | receive {workshop lowering due awaiting result rest} (held : List MapId) :
    workshop.manager.inbox = result :: rest →
    Move ⟨workshop, lowering, due, awaiting⟩ [.reported result.group result.permutation]
      ⟨Workshop.receive held (workshop.withInbox rest) result, lowering, due, awaiting⟩
  | deliver {workshop lowering due awaiting} :
    Move ⟨workshop, lowering, due, awaiting⟩
      (workshop.manager.deliver.1.flatMap FinishedCompile.receipts)
      ⟨{ workshop with manager := workshop.manager.deliver.2 }, lowering, due, awaiting⟩
  | take {workshop lowering due awaiting} (job : JobId) (resource : ResourceId) :
    Move ⟨workshop, lowering, due, awaiting⟩
      ((workshop.manager.take job resource).1.toList.map (.received job resource))
      ⟨{ workshop with manager := (workshop.manager.take job resource).2 }, lowering, due,
        awaiting⟩
  /-- A result is not waited for any longer. -/
  | unwait {workshop lowering due last job resource} (first) :
    Move ⟨workshop, lowering, due, first ++ (job, resource) :: last⟩ []
      ⟨{ workshop with manager := workshop.manager.removeWaiter job resource }, lowering, due,
        first ++ last⟩
  | cancel {workshop lowering due awaiting} (resource : ResourceId) (jobs : List JobId) :
    Move ⟨workshop, lowering, due, awaiting⟩ (jobs.map (.cancelled · resource))
      ⟨{ workshop with manager := workshop.manager.cancel resource jobs }, lowering, due,
        awaiting⟩
  | shutdown {workshop lowering due awaiting} :
    Move ⟨workshop, lowering, due, awaiting⟩ [.closed]
      ⟨{ workshop with manager := workshop.manager.shutdown }, lowering, due, awaiting⟩

/-- Moves one after another, and all that is noticed of them, the latest first. -/
inductive Moves : Traffic → List Notice → Traffic → Prop where
  | rest (traffic : Traffic) : Moves traffic [] traffic
  | next {first told middle more last} : Moves first told middle → Move middle more last →
    Moves first (more ++ told) last

theorem Moves.trans {first middle last : Traffic} {told more : List Notice}
    (before : Moves first told middle) (after : Moves middle more last) :
    Moves first (more ++ told) last := by
  induction after with
  | rest => exact before
  | next _ move inductionHypothesis =>
    rw [List.append_assoc]
    exact .next inductionHypothesis move

/-- Nothing has been done yet, and no call is in progress. -/
structure Fresh (traffic : Traffic) : Prop where
  manager : traffic.workshop.manager = {}
  waiting : traffic.workshop.compiler.waiting = []
  lowering : traffic.lowering = []
  due : traffic.due = []
  awaiting : traffic.awaiting = []

end Traffic

namespace Workshop

open Traffic (Move Moves)

variable {held : List MapId} {workshop next : Workshop} {job : JobId} {request : CompileRequest}

/-- From one workshop to another by moves, whatever calls are in progress besides; at the end they
are still in progress, and no others. -/
def Carries (workshop : Workshop) (told : List Notice) (next : Workshop) : Prop :=
  ∀ lowering due awaiting,
    Moves ⟨workshop, lowering, due, awaiting⟩ told ⟨next, lowering, due, awaiting⟩

namespace Carries

variable {told more : List Notice}

theorem rest (workshop : Workshop) : Carries workshop [] workshop := fun _ _ _ => .rest _

theorem single (move : ∀ lowering due awaiting,
    Move ⟨workshop, lowering, due, awaiting⟩ told ⟨next, lowering, due, awaiting⟩) :
    Carries workshop told next := fun lowering due awaiting => by
  have moves := Moves.next (.rest _) (move lowering due awaiting)
  rwa [List.append_nil] at moves

theorem trans {middle : Workshop} (first : Carries workshop told middle)
    (second : Carries middle more next) : Carries workshop (more ++ told) next :=
  fun lowering due awaiting => (first lowering due awaiting).trans (second lowering due awaiting)

theorem aside (aside : Aside workshop next) : Carries workshop [] next :=
  single fun _ _ _ => .aside aside

theorem thenAside {middle : Workshop} (first : Carries workshop told middle)
    (aside : Aside middle next) : Carries workshop told next := first.trans (.aside aside)

theorem releaseAll (workshop : Workshop) : Carries workshop [] workshop.releaseAll :=
  single fun _ _ _ => .release none

/-! ### Results that arrive -/

theorem finalize_withInbox (workshop : Workshop) (held : List MapId) (job : JobId)
    (entry : InFlight) (inbox : List PermutationResult) :
    (workshop.withInbox inbox).finalize held job entry =
      (workshop.finalize held job entry).withInbox inbox := by
  unfold finalize
  cases entry.profile with
  | none => rfl
  | some profile =>
    by_cases clean : entry.errors = []
    · dsimp only
      rw [if_pos clean, if_pos clean]
      rfl
    · dsimp only
      rw [if_neg clean, if_neg clean]
      rfl

/-- What is still in the inbox does not matter to the result that is taken in. -/
theorem receive_withInbox (workshop : Workshop) (held : List MapId) (result : PermutationResult)
    (inbox : List PermutationResult) :
    receive held (workshop.withInbox inbox) result =
      (receive held workshop result).withInbox inbox := by
  unfold receive
  have jobs : (workshop.withInbox inbox).manager.jobs = workshop.manager.jobs := rfl
  rw [jobs]
  cases workshop.manager.jobs.get? result.group with
  | none => rfl
  | some entry =>
    dsimp only
    split
    · exact finalize_withInbox (workshop.withEntry result.group (record entry result)) held _ _ _
    · rfl

/-- Nothing else is noticed than that results have arrived. -/
def Reports (told : List Notice) : Prop :=
  ∀ notice ∈ told, ∃ job permutation, notice = .reported job permutation

theorem Reports.append (first : Reports told) (second : Reports more) : Reports (told ++ more) :=
  fun notice member => (List.mem_append.mp member).elim (first notice) (second notice)

theorem results (held : List MapId) (workshop : Workshop) (arrived : List PermutationResult) :
    ∃ told, Reports told ∧ Carries (workshop.withInbox arrived) told
      ((arrived.foldl (receive held) workshop).withInbox []) := by
  induction arrived generalizing workshop with
  | nil => exact ⟨[], nofun, .rest _⟩
  | cons result rest inductionHypothesis =>
    obtain ⟨told, reports, carries⟩ := inductionHypothesis (receive held workshop result)
    have received : Carries (workshop.withInbox (result :: rest)) _
        (receive held (workshop.withInbox rest) result) :=
      single fun _ _ _ => .receive held rfl
    rw [receive_withInbox] at received
    refine ⟨_, reports.append fun notice member => ?_, received.trans carries⟩
    exact ⟨_, _, List.mem_singleton.mp member⟩

/-- Once the inbox has been emptied it is empty. -/
theorem results_withInbox (held : List MapId) (workshop : Workshop)
    (arrived : List PermutationResult) :
    (arrived.foldl (receive held) (workshop.withInbox [])).withInbox [] =
      arrived.foldl (receive held) (workshop.withInbox []) := by
  induction arrived generalizing workshop with
  | nil => rfl
  | cons result rest inductionHypothesis =>
    rw [List.foldl_cons, receive_withInbox]
    exact inductionHypothesis _

theorem drain (held : List MapId) (workshop : Workshop) :
    ∃ told, Reports told ∧ Carries workshop told (workshop.drain held) := by
  obtain ⟨told, reports, carries⟩ := results held (workshop.withInbox []) workshop.manager.inbox
  rw [results_withInbox] at carries
  exact ⟨told, reports, carries⟩

/-- Results may be handed out while a request is served: that is made of moves. -/
theorem process (held : List MapId) (workshop : Workshop) :
    ∃ told, Carries workshop told (workshop.process held).2 := by
  obtain ⟨told, _, drained⟩ := drain held workshop
  have delivered : Carries (workshop.drain held).flush _ (workshop.process held).2 :=
    single fun _ _ _ => .deliver
  exact ⟨_, (drained.thenAside (.flush _)).trans delivered⟩

theorem finish (held : List MapId) (workshop : Workshop) (jobs : List JobId) :
    ∃ told, Reports told ∧ Carries workshop told (workshop.finish held jobs) := by
  obtain ⟨told, reports, drained⟩ := drain held workshop
  unfold Workshop.finish
  dsimp only
  split
  · obtain ⟨more, also, again⟩ := drain held (workshop.drain held).releaseAll
    refine ⟨more ++ told, also.append reports, ?_⟩
    have released := (drained.trans (releaseAll _)).trans again
    exact released.thenAside (.flush _)
  · exact ⟨told, reports, drained.thenAside (.flush _)⟩

theorem finishAll (held : List MapId) (workshop : Workshop) :
    ∃ told, Reports told ∧ Carries workshop told (workshop.finishAll held) := by
  unfold Workshop.finishAll
  dsimp only
  split
  · exact ⟨[], nofun, .rest workshop⟩
  · exact finish held workshop _

/-- So is joining whatever is in flight for an identity. -/
theorem attach (workshop : Workshop) (identity : MapIdentity) (resource : ResourceId) :
    ∃ told, Carries workshop told
      { workshop with manager := (workshop.manager.attach identity resource).2 } := by
  unfold Manager.attach
  split
  · rename_i job found
    exact ⟨_, single fun _ _ _ => .join resource found⟩
  · exact ⟨[], .rest workshop⟩

end Carries

/-! ### Requests -/

/-- A call that is answered with a map or with errors has received them for its resource. A call
whose result was withdrawn or taken away is answered without errors. -/
def Answered (told : List Notice) (resource : ResourceId) : CompileOutcome → Prop
  | .compiled map => ∃ job, .received job resource (.ok map) ∈ told
  | .failed failure =>
    failure = .compile [] ∨ ∃ job, .received job resource (.error failure) ∈ told
  | .pending _ | .attached _ => True

theorem Answered.append {told : List Notice} {resource : ResourceId} {outcome : CompileOutcome}
    (answered : Answered told resource outcome) (earlier : List Notice) :
    Answered (told ++ earlier) resource outcome := by
  cases outcome with
  | compiled map =>
    obtain ⟨job, received⟩ := answered
    exact ⟨job, List.mem_append_left _ received⟩
  | failed failure =>
    exact answered.imp_right fun ⟨job, received⟩ => ⟨job, List.mem_append_left _ received⟩
  | pending | attached => trivial

/-- A call that waits for its job ends when it is told. -/
theorem await_moves (workshop : Workshop) (held : List MapId) (job : JobId)
    (resource : ResourceId) :
    ∃ told, Answered told resource (workshop.await held job resource).1 ∧
      ∀ lowering due awaiting,
        Moves ⟨workshop, lowering, due, (job, resource) :: awaiting⟩ told
          ⟨(workshop.await held job resource).2, lowering, due, awaiting⟩ := by
  obtain ⟨told, _, finished⟩ := Carries.finish held workshop [job]
  have taken : Carries (workshop.finish held [job]) _ _ :=
    .single fun _ _ _ => .take job resource
  refine ⟨((workshop.finish held [job]).manager.take job resource).1.toList.map
    (.received job resource) ++ told, ?_, fun lowering due awaiting => ?_⟩
  · unfold await
    dsimp only
    cases ((workshop.finish held [job]).manager.take job resource).1 with
    | none => exact .inl rfl
    | some result =>
      cases result with
      | ok map => exact ⟨job, List.mem_cons_self ..⟩
      | error failure => exact .inr ⟨job, List.mem_cons_self ..⟩
  · have ended := Moves.next ((finished.trans taken) lowering due ((job, resource) :: awaiting))
      (.unwait [])
    unfold await
    dsimp only
    split <;> exact ended

theorem joinRequest_moves (workshop : Workshop) (held : List MapId) (request : CompileRequest)
    (found : workshop.manager.inFlight? request.identity = some job) :
    ∃ told, Answered told request.resource (workshop.joinRequest held request job).1 ∧
      Carries workshop told (workshop.joinRequest held request job).2 := by
  have joins : Carries workshop _ _ := .single fun _ _ _ => .join request.resource found
  unfold joinRequest
  dsimp only
  split
  · obtain ⟨told, answered, awaited⟩ := await_moves (workshop.joined request job) held job
      request.resource
    have moves (lowering due awaiting) :=
      ((joins lowering due awaiting).next (.wait request.resource found)).trans
        (awaited lowering due awaiting)
    exact ⟨_, answered.append _, moves⟩
  · exact ⟨_, trivial, joins⟩

/-- The jobs of a call are handed to the compiler, other things happening after the first one. -/
theorem submitAll_moves {α : Type} (meanwhile : Meanwhile α) (workshop : Workshop)
    (jobs : List PermutationJob)
    (carries : ∀ workshop, ∃ told, Carries workshop told (meanwhile workshop).2) :
    ∃ told, ∀ lowering due awaiting, Moves ⟨workshop, lowering, jobs ++ due, awaiting⟩ told
      ⟨(workshop.submitAll meanwhile jobs).2, lowering, due, awaiting⟩ := by
  have submits : ∀ (rest : List PermutationJob) (workshop : Workshop) lowering due awaiting,
      Moves ⟨workshop, lowering, rest ++ due, awaiting⟩ []
        ⟨rest.foldl submit workshop, lowering, due, awaiting⟩ := by
    intro rest
    induction rest with
    | nil => exact fun _ _ _ _ => .rest _
    | cons job rest inductionHypothesis =>
      intro workshop lowering due awaiting
      exact (Moves.next (.rest _) (.submit job [])).trans
        (inductionHypothesis (workshop.submit job) lowering due awaiting)
  cases jobs with
  | nil => exact ⟨[], fun _ _ _ => .rest _⟩
  | cons job rest =>
    obtain ⟨told, besides⟩ := carries (workshop.submit job)
    refine ⟨told, fun lowering due awaiting => ?_⟩
    have first : Moves ⟨workshop, lowering, job :: rest ++ due, awaiting⟩ [] _ :=
      .next (.rest _) (.submit job [])
    have moves := (first.trans (besides lowering (rest ++ due) awaiting)).trans
      (submits rest (meanwhile (workshop.submit job)).2 lowering due awaiting)
    rwa [List.append_nil, List.nil_append] at moves

theorem compileLowered_moves {α : Type} (meanwhile : Meanwhile α) (workshop : Workshop)
    (held : List MapId) (request : CompileRequest) (job : JobId) {material : LoweredMaterial}
    (lowers : request.variant.lower = .ok material)
    (carries : ∀ workshop, ∃ told, Carries workshop told (meanwhile workshop).2) :
    ∃ told,
      Answered told request.resource
        (workshop.compileLowered held request job material meanwhile).1.1 ∧
      ∀ lowering due awaiting,
        Moves ⟨workshop, (job, request) :: lowering, due, request.waits job ++ awaiting⟩ told
          ⟨(workshop.compileLowered held request job material meanwhile).2, lowering, due,
            awaiting⟩ := by
  unfold compileLowered
  split
  · rename_i gone
    have missing : workshop.manager.jobs.get? job = none := Option.map_eq_none_iff.mp gone
    exact ⟨_, trivial, fun lowering due awaiting =>
      .next (.rest _) (.vanished [] [] lowers missing)⟩
  · rename_i entered begun
    have counted : Aside entered { entered.flush with manager := { entered.flush.manager with
        submissions := entered.flush.manager.submissions + 1 } } := by
      have flushed := Aside.flush entered
      exact ⟨flushed.jobs, flushed.byIdentity, flushed.nextJob, flushed.finished, flushed.waiters,
        flushed.inbox, flushed.waiting⟩
    obtain ⟨told, submits⟩ := submitAll_moves meanwhile _
      (permutationJobs request job material.source) carries
    have moves (lowering due awaiting) :=
      ((Moves.next (.rest _) (.lowered held [] lowers begun)).trans
        (Carries.aside counted lowering _ awaiting)).trans (submits lowering due awaiting)
    dsimp only
    split
    · rename_i synchronous
      obtain ⟨more, answered, awaited⟩ := await_moves _ held job request.resource
      have waits : request.waits job = [(job, request.resource)] := if_pos synchronous
      rw [waits]
      have ends (lowering due awaiting) :=
        (moves lowering due ((job, request.resource) :: awaiting)).trans
          (awaited lowering due awaiting)
      exact ⟨_, answered.append _, ends⟩
    · rename_i apart
      have waits : request.waits job = [] := if_neg apart
      rw [waits]
      exact ⟨_, trivial, moves⟩

/-- Serving a request is a sequence of moves, and so is whatever happens meanwhile. -/
theorem begin_moves {α : Type} (whileLowering afterFirst : Meanwhile α) (workshop : Workshop)
    (held : List MapId) (request : CompileRequest)
    (lowering : ∀ workshop, ∃ told, Carries workshop told (whileLowering workshop).2)
    (after : ∀ workshop, ∃ told, Carries workshop told (afterFirst workshop).2) :
    ∃ told,
      Carries workshop told (workshop.begin held request whileLowering afterFirst).2.2 ∧
      ∀ outcome, (workshop.begin held request whileLowering afterFirst).1 = .ok outcome →
        Answered told request.resource outcome := by
  unfold begin
  cases flying : workshop.manager.inFlight? request.identity with
  | some job =>
    obtain ⟨told, answered, joined⟩ := joinRequest_moves workshop held request flying
    refine ⟨told, joined, fun outcome same => ?_⟩
    cases same
    exact answered
  | none =>
    obtain ⟨told, besides⟩ := lowering (workshop.begun request)
    have begun (lowering due awaiting) := (Moves.next (.rest _) (.begin request flying)).trans
      (besides ((workshop.manager.nextJob, request) :: lowering) due
        (request.waits workshop.manager.nextJob ++ awaiting))
    dsimp only
    cases lowers : request.variant.lower with
    | error error =>
      have aborted (lowering due awaiting) :=
        (begun lowering due awaiting).next (.abort [] [] lowers)
      exact ⟨_, aborted, fun _ failed => nomatch failed⟩
    | ok material =>
      obtain ⟨more, answered, moves⟩ := compileLowered_moves afterFirst
        (whileLowering (workshop.begun request)).2 held request workshop.manager.nextJob lowers
        after
      have ended (lowering due awaiting) :=
        (begun lowering due awaiting).trans (moves lowering due awaiting)
      refine ⟨_, ended, fun outcome same => ?_⟩
      cases same
      exact answered.append _

end Workshop

end Shading
