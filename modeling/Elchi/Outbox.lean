import Elchi.Common
namespace Elchi.Outbox
variable {α : Type}

-- The consumer's record of one idempotency key; times are in milliseconds.
inductive KeyRecord (α : Type) where
  | inProgress (createdAt : Nat)
  | completed (response : α)
  | failed (error : String)
deriving DecidableEq, Repr

inductive Acquire (α : Type) where
  | new
  | cached (response : α)
  | failed (error : String)
  | inProgress
deriving DecidableEq, Repr

def defaultIdempotencyLeaseMs : Nat := 30000

-- The insert succeeds where there is no record. A stale reservation is taken over.
def tryAcquire (record : Option (KeyRecord α)) (now : Nat) : Option (KeyRecord α) × Acquire α :=
  match record with
  | none => (some (.inProgress now),.new)
  | some (.completed response) => (record,.cached response)
  | some (.failed error) => (record,.failed error)
  | some (.inProgress createdAt) =>
    if createdAt + defaultIdempotencyLeaseMs < now then (some (.inProgress now),.new) else (record,.inProgress)

-- What becomes of the handler if this delivery is the one that runs it: it returns, it throws
-- before its commit, the process dies on either side of the commit, or the handler returns and
-- recording the completion throws, which the same catch block takes for a handler error.
inductive Worker (α : Type) where
  | returns (response : α)
  | throws (rpc : Bool) (error : String)
  | diesBefore
  | diesAfter
  | unrecorded (error : String)
deriving DecidableEq, Repr

inductive Settle where
  | ack | requeue | deadLetter
deriving DecidableEq, Repr

def nackForError (redelivered rpc : Bool) : Settle :=
  if rpc then .deadLetter else if redelivered then .deadLetter else .requeue

-- One delivery of the event's message to a consumer.
structure Delivery (α : Type) where
  now : Nat
  redelivered : Bool
  worker : Worker α
deriving DecidableEq, Repr

structure Outcome (α : Type) where
  record : Option (KeyRecord α)
  committed : Nat
  settle : Option Settle
  answer : Option (Except String α)

def executeIdempotent (key : String) (record : Option (KeyRecord α)) (d : Delivery α) : Outcome α :=
  match tryAcquire record d.now with
  | (stored,.cached response) => ⟨stored,0,some .ack,some (.ok response)⟩
  | (stored,.failed error) => ⟨stored,0,some .ack,some (.error error)⟩
  | (stored,.inProgress) =>
    ⟨stored,0,some .requeue,some (.error ("Idempotency in_progress for " ++ key ++ ", message requeued"))⟩
  | (stored,.new) => match d.worker with
    | .returns response => ⟨some (.completed response),1,some .ack,some (.ok response)⟩
    | .throws rpc error => ⟨some (.failed error),0,some (nackForError d.redelivered rpc),some (.error error)⟩
    | .diesBefore => ⟨stored,0,none,none⟩
    | .diesAfter => ⟨stored,1,none,none⟩
    | .unrecorded error => ⟨some (.failed error),1,some (nackForError d.redelivered false),some (.error error)⟩

inductive OutboxStatus where
  | pending | published | failed
deriving DecidableEq, Repr
structure OutboxEvent where
  status : OutboxStatus
  attempts : Nat
deriving DecidableEq, Repr

def markPublished (event : OutboxEvent) : OutboxEvent := {event with status:=.published}
def maxAttempts : Nat := 10
def markFailed (event : OutboxEvent) : OutboxEvent :=
  if event.attempts + 1 ≥ maxAttempts then ⟨.failed,event.attempts + 1⟩ else {event with attempts:=event.attempts + 1}

-- One publish attempt and all deliveries until the next one: none when the message is lost,
-- several when the broker redelivers it. `heard` is the delivery whose answer reaches the
-- publisher within its timeout.
structure Attempt (α : Type) where
  deliveries : List (Delivery α)
  heard : Option Nat
deriving DecidableEq, Repr

structure World (α : Type) where
  event : OutboxEvent
  record : Option (KeyRecord α)
  effects : Nat

def enqueued : World α := ⟨⟨.pending,0⟩,none,0⟩

def World.deliver (key : String) (w : World α) (d : Delivery α) : World α × Option (Except String α) :=
  let outcome := executeIdempotent key w.record d
  ({w with record:=outcome.record,effects:=w.effects + outcome.committed},outcome.answer)
def World.deliverAll (key : String) (w : World α) : List (Delivery α) → World α × List (Option (Except String α))
  | [] => (w,[])
  | d :: rest =>
    let (next,answer) := w.deliver key d
    let (last,answers) := next.deliverAll key rest
    (last,answer :: answers)

def accepted : Option (Option (Except String α)) → Bool
  | some (some (.ok _)) => true
  | _ => false
-- A tick over the pending event; a reply within the time marks it published, all else failed.
def World.publish (key : String) (w : World α) (a : Attempt α) : World α :=
  if w.event.status = .pending then
    let (after,answers) := w.deliverAll key a.deliveries
    if accepted (a.heard.bind fun i => answers[i]?) then {after with event:=markPublished w.event}
    else {after with event:=markFailed w.event}
  else w
def World.publishAll (key : String) (w : World α) (attempts : List (Attempt α)) : World α :=
  attempts.foldl (World.publish key) w

-- The handler would commit and return in some delivery of the attempts the publisher makes.
def WouldSucceed (attempts : List (Attempt α)) : Prop :=
  ∃ a ∈ attempts.take maxAttempts,∃ d ∈ a.deliveries,∃ response,d.worker = .returns response

def ExactlyOnce (key : String) (attempts : List (Attempt α)) : Prop :=
  WouldSucceed attempts →
    (enqueued.publishAll key attempts).effects = 1 ∧ (enqueued.publishAll key attempts).event.status = .published

-- Deliveries in order: those within the lease of a dead worker do nothing, every run before
-- the first success dies before its commit, and that success is among them.
def Clean : Option Nat → List (Delivery α) → Prop
  | _,[] => False
  | since,d :: rest =>
    if since.any fun createdAt => d.now ≤ createdAt + defaultIdempotencyLeaseMs then Clean since rest
    else match d.worker with
    | .returns _ => True
    | .diesBefore => Clean (some d.now) rest
    | _ => False

-- All deliveries up to and including the one the publisher hears at attempt `i`.
def heardPrefix (attempts : List (Attempt α)) (i j : Nat) : List (Delivery α) :=
  (attempts.take i).flatMap (·.deliveries) ++ ((attempts[i]?.map (·.deliveries)).getD []).take (j + 1)

-- Some attempt the publisher makes is answered by a delivery that comes after a clean success.
def CleanlyHeard (attempts : List (Attempt α)) : Prop :=
  ∃ i j a,i < maxAttempts ∧ attempts[i]? = some a ∧ a.heard = some j ∧ j < a.deliveries.length ∧
    Clean none (heardPrefix attempts i j)

def World.Open (since : Option Nat) (w : World α) : Prop := w.record = since.map .inProgress ∧ w.effects = 0
def World.Completed (w : World α) : Prop := ∃ response,w.record = some (.completed response)
-- No later delivery can end with the effect committed exactly once and recorded.
def World.Spoilt (w : World α) : Prop :=
  (∃ error,w.record = some (.failed error)) ∨ (1 ≤ w.effects ∧ ∃ createdAt,w.record = some (.inProgress createdAt)) ∨ 2 ≤ w.effects

-- Where the consumer stands after the deliveries `past`.
inductive Phase (past : List (Delivery α)) (w : World α) : Prop where
  | waiting (since : Option Nat) (isOpen : w.Open since) (continues : ∀ more,Clean none (past ++ more) ↔ Clean since more)
  | settled (completed : w.Completed) (once : w.effects = 1) (clean : ∀ more,Clean none (past ++ more))
  | spoilt (isSpoilt : w.Spoilt) (never : ∀ more,¬Clean none (past ++ more))

theorem Phase.clean_exact (phase : Phase past w) : Clean none past ↔ w.Completed ∧ w.effects = 1 := by
  cases phase with
  | waiting since isOpen continues =>
    have empty := continues []
    rw [List.append_nil] at empty
    rw [empty]
    simp [Clean,isOpen.2]
  | settled completed once clean =>
    have now := clean []
    rw [List.append_nil] at now
    exact ⟨fun _ => ⟨completed,once⟩,fun _ => now⟩
  | spoilt isSpoilt never =>
    have now := never []
    rw [List.append_nil] at now
    refine ⟨fun clean => absurd clean now,?_⟩
    rintro ⟨⟨response,record⟩,once⟩
    rcases isSpoilt with ⟨error,failed⟩ | ⟨-,createdAt,running⟩ | twice
    · rw [record] at failed; cases failed
    · rw [record] at running; cases running
    · omega

theorem deliver_record (key : String) (w : World α) (d : Delivery α) :
    (w.deliver key d).1.record = (executeIdempotent key w.record d).record := rfl
theorem deliver_committed (key : String) (w : World α) (d : Delivery α) :
    (w.deliver key d).1.effects = w.effects + (executeIdempotent key w.record d).committed := rfl
-- The worker that got the key runs the handler.
theorem execute_new {record stored : Option (KeyRecord α)} {d : Delivery α} (runs : tryAcquire record d.now = (stored,.new)) (key : String) :
    executeIdempotent key record d = match d.worker with
      | .returns response => ⟨some (.completed response),1,some .ack,some (.ok response)⟩
      | .throws rpc error => ⟨some (.failed error),0,some (nackForError d.redelivered rpc),some (.error error)⟩
      | .diesBefore => ⟨stored,0,none,none⟩
      | .diesAfter => ⟨stored,1,none,none⟩
      | .unrecorded error => ⟨some (.failed error),1,some (nackForError d.redelivered false),some (.error error)⟩ := by
  rw [executeIdempotent,runs]
-- Within the lease of another worker nothing is run.
theorem execute_leased {createdAt : Nat} {d : Delivery α} (alive : ¬createdAt + defaultIdempotencyLeaseMs < d.now) (key : String) :
    (executeIdempotent key (some (.inProgress createdAt)) d).record = some (.inProgress createdAt) ∧
      (executeIdempotent key (some (.inProgress createdAt)) d).committed = 0 := by
  have busy : tryAcquire (some (.inProgress createdAt : KeyRecord α)) d.now = (some (.inProgress createdAt),.inProgress) := if_neg alive
  rw [executeIdempotent,busy]
  exact ⟨rfl,rfl⟩

theorem deliver_effects (key : String) (w : World α) (d : Delivery α) : w.effects ≤ (w.deliver key d).1.effects :=
  Nat.le_add_right _ _

theorem spoilt_deliver (key : String) (spoilt : World.Spoilt w) (d : Delivery α) : ((w.deliver key d).1).Spoilt := by
  rcases spoilt with ⟨error,failed⟩ | ⟨once,createdAt,running⟩ | twice
  · left
    refine ⟨error,?_⟩
    rw [deliver_record,failed]
    rfl
  · unfold World.deliver executeIdempotent tryAcquire World.Spoilt
    rw [running]
    dsimp only
    by_cases stale : createdAt + defaultIdempotencyLeaseMs < d.now
    · rw [if_pos stale]
      dsimp only
      cases d.worker with
      | returns response => right; right; simp only; omega
      | throws rpc error => left; exact ⟨error,rfl⟩
      | diesBefore => right; left; exact ⟨once,d.now,rfl⟩
      | diesAfter => right; left; exact ⟨by simp,d.now,rfl⟩
      | unrecorded error => left; exact ⟨error,rfl⟩
    · rw [if_neg stale]
      exact .inr (.inl ⟨once,createdAt,rfl⟩)
  · exact .inr (.inr (Nat.le_trans twice (deliver_effects key w d)))

theorem completed_deliver (key : String) (completed : World.Completed w) (d : Delivery α) :
    ((w.deliver key d).1).Completed ∧ (w.deliver key d).1.effects = w.effects := by
  obtain ⟨response,record⟩ := completed
  refine ⟨⟨response,?_⟩,?_⟩
  · rw [deliver_record,record]
    rfl
  · rw [deliver_committed,record]
    rfl

theorem open_deliver (key : String) (isOpen : World.Open since w) (d : Delivery α)
    (continues : ∀ more,Clean none (past ++ more) ↔ Clean since more) : Phase (past ++ [d]) (w.deliver key d).1 := by
  obtain ⟨record,none⟩ := isOpen
  have next : ∀ more,Clean Option.none (past ++ [d] ++ more) ↔ Clean since (d :: more) := by
    intro more
    rw [List.append_assoc]
    exact continues (d :: more)
  by_cases leased : (since.any fun createdAt => d.now ≤ createdAt + defaultIdempotencyLeaseMs) = true
  · -- a dead worker's reservation is still alive: the delivery is requeued and nothing changes
    obtain ⟨createdAt,rfl⟩ : ∃ createdAt,since = some createdAt := by
      cases since with
      | none => cases leased
      | some createdAt => exact ⟨createdAt,rfl⟩
    have alive : ¬createdAt + defaultIdempotencyLeaseMs < d.now := by
      simp only [Option.any_some,decide_eq_true_eq] at leased
      omega
    refine .waiting (some createdAt) ⟨?_,?_⟩ fun more => ?_
    · rw [deliver_record,record]
      exact (execute_leased alive key).1
    · rw [deliver_committed,record,none]
      exact (Nat.zero_add _).trans (execute_leased alive key).2
    · rw [next more]
      simp only [Clean,leased,if_true]
  · have runs : tryAcquire w.record d.now = (some (.inProgress d.now),.new) := by
      rw [record]
      cases since with
      | none => rfl
      | some createdAt =>
        have stale : createdAt + defaultIdempotencyLeaseMs < d.now := by
          simp only [Option.any_some,decide_eq_true_eq] at leased
          omega
        exact if_pos stale
    simp only [Clean,leased] at next
    cases worker : d.worker with
    | returns response =>
      refine .settled ⟨response,?_⟩ ?_ fun more => ?_
      · simp [deliver_record,execute_new runs,worker]
      · simp [deliver_committed,execute_new runs,worker,none]
      · rw [next more]
        simp [worker]
    | diesBefore =>
      refine .waiting (some d.now) ⟨?_,?_⟩ fun more => ?_
      · simp [deliver_record,execute_new runs,worker]
      · simp [deliver_committed,execute_new runs,worker,none]
      · rw [next more]
        simp [worker]
    | throws rpc error =>
      refine .spoilt (.inl ⟨error,?_⟩) fun more => ?_
      · simp [deliver_record,execute_new runs,worker]
      · rw [next more]
        simp [worker]
    | diesAfter =>
      refine .spoilt (.inr (.inl ⟨?_,d.now,?_⟩)) fun more => ?_
      · simp [deliver_committed,execute_new runs,worker]
      · simp [deliver_record,execute_new runs,worker]
      · rw [next more]
        simp [worker]
    | unrecorded error =>
      refine .spoilt (.inl ⟨error,?_⟩) fun more => ?_
      · simp [deliver_record,execute_new runs,worker]
      · rw [next more]
        simp [worker]

theorem phase_deliver (key : String) (phase : Phase past w) (d : Delivery α) : Phase (past ++ [d]) (w.deliver key d).1 := by
  cases phase with
  | waiting since isOpen continues => exact open_deliver key isOpen d continues
  | settled completed once clean =>
    obtain ⟨still,same⟩ := completed_deliver key completed d
    refine .settled still (same.trans once) fun more => ?_
    rw [List.append_assoc]
    exact clean _
  | spoilt isSpoilt never =>
    refine .spoilt (spoilt_deliver key isSpoilt d) fun more => ?_
    rw [List.append_assoc]
    exact never _

-- A consumer answers with success exactly when its record says completed afterwards.
theorem deliver_accepted (key : String) (w : World α) (d : Delivery α) :
    accepted (some (w.deliver key d).2) = true ↔ ((w.deliver key d).1).Completed := by
  unfold World.deliver executeIdempotent World.Completed
  dsimp only
  cases record : w.record with
  | none => cases worker : d.worker <;> simp [tryAcquire,accepted]
  | some stored =>
    cases stored with
    | completed response => simp [tryAcquire,accepted]
    | failed error => simp [tryAcquire,accepted]
    | inProgress createdAt =>
      by_cases stale : createdAt + defaultIdempotencyLeaseMs < d.now
      · cases worker : d.worker <;> simp [tryAcquire,accepted,stale]
      · simp [tryAcquire,accepted,stale]

theorem deliverAll_append (key : String) (w : World α) (first second : List (Delivery α)) :
    w.deliverAll key (first ++ second) =
      (((w.deliverAll key first).1.deliverAll key second).1,
        (w.deliverAll key first).2 ++ ((w.deliverAll key first).1.deliverAll key second).2) := by
  induction first generalizing w with
  | nil => rfl
  | cons d rest ih => simp [World.deliverAll,ih]

theorem deliverAll_length (key : String) (w : World α) (ds : List (Delivery α)) : (w.deliverAll key ds).2.length = ds.length := by
  induction ds generalizing w with
  | nil => rfl
  | cons d rest ih => simp [World.deliverAll,ih]

theorem phase_deliverAll (key : String) (phase : Phase past w) (ds : List (Delivery α)) :
    Phase (past ++ ds) (w.deliverAll key ds).1 := by
  induction ds generalizing past w with
  | nil => simpa [World.deliverAll] using phase
  | cons d rest ih =>
    have step := ih (phase_deliver key phase d)
    rw [List.append_assoc] at step
    exact step

-- The answer heard at position `j` is a success exactly when the record is completed by then.
theorem deliverAll_accepted (key : String) (w : World α) (ds : List (Delivery α)) (inside : j < ds.length) :
    accepted (w.deliverAll key ds).2[j]? = true ↔ ((w.deliverAll key (ds.take (j + 1))).1).Completed := by
  induction ds generalizing w j with
  | nil => cases inside
  | cons d rest ih =>
    cases j with
    | zero => simpa [World.deliverAll] using deliver_accepted key w d
    | succ j =>
      have tail := ih (w.deliver key d).1 (by simpa using inside)
      simpa [World.deliverAll] using tail

theorem completed_deliverAll (key : String) (completed : World.Completed w) (ds : List (Delivery α)) :
    ((w.deliverAll key ds).1).Completed ∧ (w.deliverAll key ds).1.effects = w.effects := by
  induction ds generalizing w with
  | nil => exact ⟨completed,rfl⟩
  | cons d rest ih =>
    obtain ⟨still,same⟩ := completed_deliver key completed d
    obtain ⟨last,equal⟩ := ih still
    exact ⟨last,equal.trans same⟩

theorem heardPrefix_zero (a : Attempt α) (rest : List (Attempt α)) (j : Nat) :
    heardPrefix (a :: rest) 0 j = a.deliveries.take (j + 1) := by
  simp [heardPrefix]
theorem heardPrefix_succ (a : Attempt α) (rest : List (Attempt α)) (i j : Nat) :
    heardPrefix (a :: rest) (i + 1) j = a.deliveries ++ heardPrefix rest i j := by
  simp [heardPrefix]

theorem publishAll_stopped (key : String) (stopped : World.event w ≠ ⟨.pending,w.event.attempts⟩) (attempts : List (Attempt α)) :
    w.publishAll key attempts = w := by
  have notPending : w.event.status ≠ .pending := fun pending => stopped (by rw [←pending])
  induction attempts with
  | nil => rfl
  | cons a rest ih =>
    unfold World.publishAll at ih ⊢
    rw [List.foldl_cons]
    unfold World.publish
    rw [if_neg notPending]
    exact ih

def HeardFrom (made : Nat) (past : List (Delivery α)) (attempts : List (Attempt α)) : Prop :=
  ∃ i j a,made + i < maxAttempts ∧ attempts[i]? = some a ∧ a.heard = some j ∧ j < a.deliveries.length ∧
    Clean none (past ++ heardPrefix attempts i j)

theorem heardFrom_cons (made : Nat) (past : List (Delivery α)) (a : Attempt α) (rest : List (Attempt α)) :
    HeardFrom made past (a :: rest) ↔
      (∃ j,made < maxAttempts ∧ a.heard = some j ∧ j < a.deliveries.length ∧ Clean none (past ++ a.deliveries.take (j + 1))) ∨
      HeardFrom (made + 1) (past ++ a.deliveries) rest := by
  constructor
  · rintro ⟨i,j,b,early,found,heard,inside,clean⟩
    cases i with
    | zero =>
      cases found
      rw [heardPrefix_zero] at clean
      exact .inl ⟨j,early,heard,inside,clean⟩
    | succ i =>
      rw [heardPrefix_succ,←List.append_assoc] at clean
      exact .inr ⟨i,j,b,by omega,found,heard,inside,clean⟩
  · rintro (⟨j,early,heard,inside,clean⟩ | ⟨i,j,b,early,found,heard,inside,clean⟩)
    · exact ⟨0,j,a,early,rfl,heard,inside,by rwa [heardPrefix_zero]⟩
    · exact ⟨i + 1,j,b,by omega,found,heard,inside,by rwa [heardPrefix_succ,←List.append_assoc]⟩

-- One attempt: it is answered with success exactly where its heard delivery finds the record completed.
theorem attempt_accepted (key : String) (w : World α) (a : Attempt α) :
    accepted (a.heard.bind fun i => (w.deliverAll key a.deliveries).2[i]?) = true ↔
      ∃ j,a.heard = some j ∧ j < a.deliveries.length ∧ ((w.deliverAll key (a.deliveries.take (j + 1))).1).Completed := by
  cases heard : a.heard with
  | none => simp [accepted]
  | some j =>
    simp only [Option.bind_some]
    by_cases inside : j < a.deliveries.length
    · rw [deliverAll_accepted key w a.deliveries inside]
      constructor
      · exact fun completed => ⟨j,rfl,inside,completed⟩
      · rintro ⟨j',same,-,completed⟩
        cases same
        exact completed
    · have outside : (w.deliverAll key a.deliveries).2[j]? = none := by
        rw [List.getElem?_eq_none_iff,deliverAll_length]
        omega
      rw [outside]
      constructor
      · intro impossible
        cases impossible
      · rintro ⟨j',same,inside',-⟩
        cases same
        exact absurd inside' inside

theorem publishAll_exact (key : String) (attempts : List (Attempt α)) (phase : Phase past w) (pending : w.event = ⟨.pending,made⟩)
    (early : made < maxAttempts) :
    ((w.publishAll key attempts).effects = 1 ∧ (w.publishAll key attempts).event.status = .published) ↔
      HeardFrom made past attempts := by
  induction attempts generalizing past w made with
  | nil => simp [World.publishAll,pending,HeardFrom]
  | cons a rest ih =>
    rw [heardFrom_cons]
    have prefixPhase : ∀ j,Phase (past ++ a.deliveries.take (j + 1)) (w.deliverAll key (a.deliveries.take (j + 1))).1 :=
      fun j => phase_deliverAll key phase _
    have step : w.publishAll key (a :: rest) = (w.publish key a).publishAll key rest := rfl
    rw [step]
    by_cases success : accepted (a.heard.bind fun i => (w.deliverAll key a.deliveries).2[i]?) = true
    · -- published at this attempt: what is left to compare is the number of commits
      obtain ⟨j,heard,inside,completed⟩ := (attempt_accepted key w a).mp success
      have published : w.publish key a = {(w.deliverAll key a.deliveries).1 with event:=markPublished w.event} := by
        simp [World.publish,pending,success]
      have stopped : ((w.publish key a).publishAll key rest) = w.publish key a :=
        publishAll_stopped key (by rw [published]; simp [markPublished]) rest
      have whole := completed_deliverAll key completed (a.deliveries.drop (j + 1))
      have joined : (w.deliverAll key a.deliveries).1 =
          ((w.deliverAll key (a.deliveries.take (j + 1))).1.deliverAll key (a.deliveries.drop (j + 1))).1 := by
        conv_lhs => rw [←List.take_append_drop (j + 1) a.deliveries,deliverAll_append]
      have count : (w.deliverAll key a.deliveries).1.effects = (w.deliverAll key (a.deliveries.take (j + 1))).1.effects := by
        rw [joined]
        exact whole.2
      rw [stopped,published]
      simp only [markPublished,and_true]
      rw [count]
      constructor
      · intro once
        exact .inl ⟨j,early,heard,inside,(prefixPhase j).clean_exact.mpr ⟨completed,once⟩⟩
      · rintro (⟨j',-,heard',-,clean⟩ | ⟨i,j',b,-,-,-,-,clean⟩)
        · cases heard.symm.trans heard'
          exact ((prefixPhase j).clean_exact.mp clean).2
        · -- a spoilt consumer stays spoilt, so a later clean prefix means this one was clean
          cases prefixPhase j with
          | waiting since isOpen continues =>
            obtain ⟨response,record⟩ := completed
            rw [isOpen.1] at record
            cases since <;> cases record
          | settled _ once _ => exact once
          | spoilt isSpoilt never =>
            rw [←List.take_append_drop (j + 1) a.deliveries,←List.append_assoc,List.append_assoc] at clean
            exact absurd clean (never _)
    · have failed : w.publish key a = {(w.deliverAll key a.deliveries).1 with event:=markFailed w.event} := by
        simp [World.publish,pending,success]
      have silent : ¬∃ j,made < maxAttempts ∧ a.heard = some j ∧ j < a.deliveries.length ∧
          Clean none (past ++ a.deliveries.take (j + 1)) := by
        rintro ⟨j,-,heard,inside,clean⟩
        have completed := ((prefixPhase j).clean_exact.mp clean).1
        exact success ((attempt_accepted key w a).mpr ⟨j,heard,inside,completed⟩)
      rw [or_iff_right silent]
      by_cases last : made + 1 ≥ maxAttempts
      · have gaveUp : w.publish key a = {(w.deliverAll key a.deliveries).1 with event:=⟨.failed,made + 1⟩} := by
          rw [failed,pending]
          simp [markFailed,last]
        rw [publishAll_stopped key (by rw [gaveUp]; simp) rest,gaveUp]
        constructor
        · rintro ⟨-,impossible⟩
          cases impossible
        · rintro ⟨i,j,b,late,-⟩
          omega
      · refine ih ?_ (by rw [failed,pending]; simp [markFailed,last]) (by omega)
        have after := phase_deliverAll key phase a.deliveries
        rw [failed]
        cases after with
        | waiting since isOpen continues => exact .waiting since isOpen continues
        | settled completed once clean => exact .settled completed once clean
        | spoilt isSpoilt never => exact .spoilt isSpoilt never

theorem exactlyOnce_exact (key : String) (attempts : List (Attempt α)) :
    ExactlyOnce key attempts ↔ (WouldSucceed attempts → CleanlyHeard attempts) := by
  have start : Phase ([] : List (Delivery α)) enqueued := .waiting none ⟨rfl,rfl⟩ fun more => Iff.rfl
  have exact := publishAll_exact key attempts start rfl (by decide)
  have same : HeardFrom 0 [] attempts ↔ CleanlyHeard attempts := by
    simp [HeardFrom,CleanlyHeard]
  rw [same] at exact
  unfold ExactlyOnce
  rw [exact]

-- A timeout inside the first handler run, then nine attempts at which it would succeed.
theorem transient_failure_replayed : ¬ExactlyOnce (α:=Nat) "order.settlement.advance:t1"
    (⟨[⟨0,false,.throws false "timeout"⟩],some 0⟩ :: List.replicate 9 ⟨[⟨60000,false,.returns 1⟩],some 0⟩) := by
  intro once
  have wouldSucceed : WouldSucceed (α:=Nat)
      (⟨[⟨0,false,.throws false "timeout"⟩],some 0⟩ :: List.replicate 9 ⟨[⟨60000,false,.returns 1⟩],some 0⟩) :=
    ⟨⟨[⟨60000,false,.returns 1⟩],some 0⟩,by decide,⟨60000,false,.returns 1⟩,by decide,1,rfl⟩
  have none := (once wouldSucceed).1
  revert none
  decide

end Elchi.Outbox
