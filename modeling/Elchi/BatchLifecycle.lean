import Elchi.DepotStock
namespace Elchi.Batches
open Orders RowLock

-- The operations on a batch, each in two steps: the unlocked reading with its checks, and the
-- commit of what was decided on it. The bulk cancellation reads nothing.
inductive Job where
  | send (now batchId : Nat) (random : String) (input : SendInput)
  | receive (now batchId : Nat) (requesterId : Option Nat)
  | receiveOrders (now batchId : Nat) (orderIds : List Nat) (requesterId : Option Nat)
  | cancel (now batchId : Nat) (reason : String)
  | cancelAll (now : Nat) (batchIds : List Nat) (removeOrderBindings : Bool)
inductive Session where
  | send (now batchId : Nat) (random : String) (input : SendInput) (batch : Batch)
  | receive (now batchId requesterId : Nat) (batch : Batch)
  | receiveOrders (now batchId requesterId : Nat) (orderIds : List Nat) (batch : Batch)
  | cancel (now batchId : Nat) (batch : Batch)
  | cancelAll (now : Nat) (batchIds : List Nat) (removeOrderBindings : Bool)

def Job.read : Job → Depot → Except RpcError Session
  | .send now batchId random input,depot => do
    checkSendInput input
    let batch ← findBatch batchId depot
    checkSend batch
    .ok (.send now batchId random input batch)
  | .receive now batchId requesterId,depot => do
    let batch ← findBatch batchId depot
    checkReceive batch
    .ok (.receive now batchId (requesterId.getD 0) batch)
  | .receiveOrders now batchId orderIds requesterId,depot => do
    checkScanned orderIds
    let batch ← findBatch batchId depot
    checkReceiveOrders batch
    .ok (.receiveOrders now batchId (requesterId.getD 0) orderIds batch)
  | .cancel now batchId reason,depot => do
    checkReason reason
    let batch ← findBatch batchId depot
    checkCancel batch
    .ok (.cancel now batchId batch)
  | .cancelAll now batchIds removeOrderBindings,_ => .ok (.cancelAll now batchIds removeOrderBindings)
def Session.commits : Session → Depot → Except RpcError (List (Depot → Depot))
  | .send now batchId random input batch,depot => sendBatch now batchId random input batch depot
  | .receive now batchId requesterId batch,_ => .ok [receiveBatch now requesterId batchId batch]
  | .receiveOrders now batchId requesterId orderIds batch,depot => receiveBatchOrders now requesterId batchId orderIds batch depot
  | .cancel now batchId batch,_ => .ok [cancelBatch now batchId batch]
  | .cancelAll now batchIds removeOrderBindings,depot => oneCommit (cancelBranchTransferBatches now batchIds removeOrderBindings depot)

-- Read and committed at once, a job is the operation.
def Job.op : Job → Op
  | .send now batchId random input => .send now batchId random input
  | .receive now batchId requesterId => .receive now batchId requesterId
  | .receiveOrders now batchId orderIds requesterId => .receiveOrders now batchId orderIds requesterId
  | .cancel now batchId reason => .cancelBatch now batchId reason
  | .cancelAll now batchIds removeOrderBindings => .cancelBatches now batchIds removeOrderBindings
theorem job_at_once (job : Job) (depot : Depot) : (job.op.commits depot).map (fun commits => applyAll commits depot) =
    (job.read depot >>= fun session => session.commits depot).map fun commits => applyAll commits depot := by
  cases job with
  | send now batchId random input =>
    simp only [Job.op,Op.commits,Job.read,sendBranchTransferBatch,Session.commits,bind_assoc]
    rfl
  | receive now batchId requesterId =>
    simp only [Job.op,Op.commits,Job.read,receiveBranchTransferBatch]
    cases findBatch batchId depot with
    | error _ => rfl
    | ok batch => cases checked : checkReceive batch with
      | error _ => simp only [bind,Except.bind,checked]; rfl
      | ok _ => simp only [bind,Except.bind,checked]; rfl
  | receiveOrders now batchId orderIds requesterId =>
    simp only [Job.op,Op.commits,Job.read,receiveBranchTransferBatchOrders,Session.commits,bind_assoc]
    rfl
  | cancel now batchId reason =>
    simp only [Job.op,Op.commits,Job.read,cancelBranchTransferBatch]
    cases checkReason reason with
    | error _ => rfl
    | ok _ => cases findBatch batchId depot with
      | error _ => rfl
      | ok batch => cases checked : checkCancel batch with
        | error _ => simp only [bind,Except.bind,checked]; rfl
        | ok _ => simp only [bind,Except.bind,checked]; rfl
  | cancelAll now batchIds removeOrderBindings => rfl

-- Any number of them on their way. `applied` are those that committed.
structure Dispatch where
  depot : Depot
  sessions : List Session
  applied : List Session
inductive Step where
  | read (job : Job)
  | commit (index : Nat)
def Dispatch.next (dispatch : Dispatch) : Step → Dispatch
  | .read job => match job.read dispatch.depot with
    | .ok session => {dispatch with sessions:=dispatch.sessions ++ [session]}
    | .error _ => dispatch
  | .commit index => match dispatch.sessions[index]? with
    | none => dispatch
    | some session => match session.commits dispatch.depot with
      | .ok commits => ⟨applyAll commits dispatch.depot,dispatch.sessions.eraseIdx index,dispatch.applied ++ [session]⟩
      | .error _ => {dispatch with sessions:=dispatch.sessions.eraseIdx index}
def idle (depot : Depot) : Dispatch := ⟨depot,[],[]⟩
def dispatchAll : Dispatch → List Step → Dispatch := Runs.runFrom Dispatch.next

def Session.receives (id : Nat) : Session → Bool
  | .receive _ batchId _ _ => batchId == id
  | .receiveOrders _ batchId _ _ _ => batchId == id
  | _ => false
def Session.cancels (id : Nat) : Session → Bool
  | .cancel _ batchId _ => batchId == id
  | .cancelAll _ batchIds _ => batchIds.contains id
  | _ => false

def follows : BatchStatus → BatchStatus → Bool
  | .pending,.sent => true
  | .sent,.received => true
  | .pending,.cancelled => true
  | .sent,.cancelled => true
  | before,after => before == after
def Lawful (dispatch : Dispatch) (step : Step) : Prop :=
  ∀ id before,dispatch.depot.batches.row id = some before →
    ∃ after,(dispatch.next step).depot.batches.row id = some after ∧ follows before.status after.status = true

structure OneWay (start : Dispatch) (steps : List Step) : Prop where
  path : ∀ front step,front ++ [step] <+: steps → Lawful (dispatchAll start front) step
  final : ∀ front later,front ++ later <+: steps → ∀ id batch,(dispatchAll start front).depot.batches.row id = some batch →
    batch.status = .received ∨ batch.status = .cancelled →
      ∃ found,(dispatchAll start (front ++ later)).depot.batches.row id = some found ∧ found.status = batch.status
  apart : ∀ front,front <+: steps → ∀ id,¬((∃ session ∈ (dispatchAll start front).applied,session.receives id = true) ∧
    ∃ session ∈ (dispatchAll start front).applied,session.cancels id = true)

-- The status stored when the session commits still is one the session may leave.
def Session.Fits (depot : Depot) : Session → Prop
  | .send now batchId random input batch => ∀ toMark stored,itemsToMark (depot.liveItems batchId) input.orderIds.eraseDups = .ok toMark →
      depot.batches.row batchId = some stored →
        if leavesWhole now batchId toMark depot then stored.status = .pending ∨ stored.status = .sent
        else depot.keyTaken batch.sourceBranchId (splitKey now batchId random) = true ∨ stored.status = .pending
  | .receive _ batchId _ _ => ∀ stored,depot.batches.row batchId = some stored → stored.status = .sent ∨ stored.status = .received
  | .receiveOrders _ batchId _ orderIds _ => ∀ selected stored,scannedItems (depot.liveItems batchId) orderIds.eraseDups = .ok selected →
      depot.batches.row batchId = some stored → stored.status = .sent ∨ stored.status = .received
  | .cancel _ batchId _ => ∀ stored,depot.batches.row batchId = some stored → stored.status ≠ .received
  | .cancelAll _ batchIds _ => (∀ id ∈ batchIds,depot.batches.row id ≠ none) →
      ∀ id ∈ batchIds,∀ stored,depot.batches.row id = some stored → stored.status ≠ .received
def FitsStored (dispatch : Dispatch) : Step → Prop
  | .read _ => True
  | .commit index => ∀ session,dispatch.sessions[index]? = some session → session.Fits dispatch.depot

-- What a commit writes into the status of a batch.
def Session.writes (depot : Depot) (id : Nat) : Session → Option BatchStatus
  | .send now batchId random input batch => match itemsToMark (depot.liveItems batchId) input.orderIds.eraseDups with
    | .error _ => none
    | .ok toMark =>
      if batchId ≠ id then none
      else if leavesWhole now batchId toMark depot then some .sent
      else if depot.keyTaken batch.sourceBranchId (splitKey now batchId random) then none
      else some .pending
  | .receive _ batchId _ _ => if batchId = id then some .received else none
  | .receiveOrders _ batchId _ _ _ => if batchId = id then some .received else none
  | .cancel _ batchId _ => if batchId = id then some .cancelled else none
  | .cancelAll _ batchIds _ => if id ∈ batchIds then some .cancelled else none
def Session.Known (depot : Depot) : Session → Prop
  | .send _ batchId _ _ batch => depot.batches.row batchId ≠ none ∧ batch.isDeleted = false
  | .receive _ batchId _ batch => depot.batches.row batchId ≠ none ∧ batch.isDeleted = false
  | .receiveOrders _ batchId _ _ batch => depot.batches.row batchId ≠ none ∧ batch.isDeleted = false
  | .cancel _ batchId batch => depot.batches.row batchId ≠ none ∧ batch.isDeleted = false
  | .cancelAll _ _ _ => True

-- The statuses of the batches of one state in a later one.
def Writes (depot next : Depot) (status : Nat → Option BatchStatus) : Prop :=
  ∀ id before,depot.batches.row id = some before →
    ∃ after,next.batches.row id = some after ∧ after.status = (status id).getD before.status
theorem put_writes {depot next : Depot} (batch : Batch) (rows : next.batches = depot.batches.put batchId batch)
    (has : batch.status = status) : Writes depot next fun id => if batchId = id then some status else none := by
  intro id before here
  rw [rows,row_put]
  by_cases same : batchId = id
  · exact ⟨batch,by simp [same],by simp [same,has]⟩
  · exact ⟨before,by simp [same,here],by simp [same]⟩

theorem grown_writes {first second third : Depot} {status : Nat → Option BatchStatus} (writes : Writes first second status)
    (grown : Grown second third) : Writes first third status := by
  intro id before here
  obtain ⟨middle,there,same⟩ := writes id before here
  obtain ⟨after,found,again⟩ := grown.batches id middle there
  exact ⟨after,found,again.trans same⟩

theorem send_writes (stocked : Stocked depot) (sent : sendBatch now batchId random input batch depot = .ok commits) :
    Writes depot (applyAll commits depot) fun id => (Session.send now batchId random input batch).writes depot id := by
  obtain ⟨toMark,selected,ways⟩ := sendBatch_parts sent
  have wholly : leavesWhole now batchId toMark depot = true ↔
      ∀ item ∈ (markSent now batchId (toMark.map (·.orderId)) depot).liveItems batchId,item.sentAt.isSome = true := List.all_eq_true
  have written : ∀ id,(Session.send now batchId random input batch).writes depot id =
      if batchId ≠ id then none else if leavesWhole now batchId toMark depot then some .sent
      else if depot.keyTaken batch.sourceBranchId (splitKey now batchId random) then none else some .pending := by
    intro id
    simp only [Session.writes,selected]
  intro id before here
  dsimp only
  rw [written]
  rcases ways with ⟨all,rfl⟩ | ⟨part,taken,rfl⟩ | ⟨part,free,rfl⟩
  · rw [applyAll,List.foldl_append,←applyAll,←applyAll,applyAll_trackEach]
    have rows : (applyAll [markSent now batchId (toMark.map (·.orderId)),(·.saveBatch batchId (sentBatch now input batch)),
        sendOrders now batchId batchId batch (toMark.map (·.orderId))] depot).batches.row id =
          if batchId = id then some (sentBatch now input batch) else depot.batches.row id := row_put _ _ id _
    by_cases same : batchId = id
    · subst same
      exact ⟨sentBatch now input batch,by rw [rows,if_pos rfl],by simp [wholly.mpr all,sentBatch]⟩
    · exact ⟨before,by rw [rows,if_neg same,here],by simp [same]⟩
  · refine ⟨before,here,?_⟩
    have notAll : leavesWhole now batchId toMark depot = false := Bool.eq_false_iff.mpr fun all => part (wholly.mp all)
    by_cases same : batchId = id
    · subst same
      simp [notAll,taken]
    · simp [same]
  · rw [applyAll,List.foldl_append,←applyAll,←applyAll,applyAll_trackEach]
    let rest := remainingBatch (((markSent now batchId (toMark.map (·.orderId)) depot).liveItems batchId).filter fun item => item.sentAt.isNone) batch
    have rows : (applyAll [markSent now batchId (toMark.map (·.orderId)),(·.insertBatch (splitBatch now batchId random input toMark batch)),
        moveTo batchId depot.nextBatchId (toMark.map (·.orderId)),(·.saveBatch batchId rest),
        sendOrders now batchId depot.nextBatchId batch (toMark.map (·.orderId))] depot).batches.row id = if batchId = id then some rest
          else (depot.insertBatch (splitBatch now batchId random input toMark batch)).batches.row id := row_put _ _ id _
    have notAll : leavesWhole now batchId toMark depot = false := Bool.eq_false_iff.mpr fun all => part (wholly.mp all)
    by_cases same : batchId = id
    · subst same
      exact ⟨rest,by rw [rows,if_pos rfl],by simp [notAll,free,rest,remainingBatch]⟩
    · have later : depot.nextBatchId ≠ id := Nat.ne_of_gt (stocked.below id (by simp [here]))
      exact ⟨before,by rw [rows,if_neg same,insertBatch_row,if_neg later,here],by simp [same]⟩

theorem commit_writes {session : Session} (stocked : Stocked depot) (known : session.Known depot)
    (done : session.commits depot = .ok commits) :
    Stocked (applyAll commits depot) ∧ Writes depot (applyAll commits depot) fun id => session.writes depot id := by
  cases session with
  | send now batchId random input batch =>
    refine ⟨?_,send_writes stocked done⟩
    have whole := send_stocked stocked known.1 known.2 done commits.length
    rwa [List.take_length] at whole
  | receive now batchId requesterId batch =>
    cases done
    exact ⟨receiveBatch_stocked stocked known.1 known.2 now requesterId,put_writes (receivedBatch now requesterId batch) rfl rfl⟩
  | receiveOrders now batchId requesterId orderIds batch =>
    obtain ⟨selectedItems,scanned,rest⟩ := error_bind_parts done
    cases rest
    have received := receiveSelected_stocked stocked known.1 known.2 (receiveSelected_scanned scanned) now requesterId
    have written : Writes depot (receiveSelected now requesterId batchId batch selectedItems depot)
        fun id => if batchId = id then some .received else none := put_writes (receivedBatch now requesterId
          {batch with orderCount:=selectedItems.length,totalPrice:=snapshotTotal selectedItems}) rfl rfl
    let rebatched := rebatch now batchId batch (((depot.liveItems batchId).filter fun item =>
      !(selectedItems.map (·.orderId)).contains item.orderId).map (·.orderId)) (receiveSelected now requesterId batchId batch selectedItems depot)
    have kept : Stocked (orKeep _ rebatched) ∧ Grown (receiveSelected now requesterId batchId batch selectedItems depot) (orKeep _ rebatched) :=
      orKeep_keeps (P:=fun next => Stocked next ∧ Grown _ next) ⟨received,Grown.refl _⟩ fun next done => rebatch_stocked received done
    exact ⟨kept.1,grown_writes written kept.2⟩
  | cancel now batchId batch =>
    cases done
    exact ⟨cancelBatch_stocked stocked known.1 known.2 now,put_writes (cancelledBatch now batch) rfl rfl⟩
  | cancelAll now batchIds removeOrderBindings =>
    simp only [Session.commits] at done
    cases cancelled : cancelBranchTransferBatches now batchIds removeOrderBindings depot with
    | error _ => rw [cancelled] at done; cases done
    | ok next =>
      rw [cancelled] at done
      cases done
      refine ⟨cancelBatches_stocked stocked cancelled,?_⟩
      obtain ⟨-,rfl⟩ := cancelBatches_parts cancelled
      intro id before here
      let close := fun (id : Nat) (batch : Batch) =>
        if batchIds.contains id && !batch.isDeleted then {batch with status:=.cancelled,cancelledAt:=some now} else batch
      refine ⟨close id before,(map_row depot.batches close id).trans (by rw [here]; rfl),?_⟩
      have kept := stocked.kept id before here
      by_cases chosen : id ∈ batchIds
      · simp [close,Session.writes,chosen,kept]
      · simp [close,Session.writes,chosen]

@[simp] theorem follows_refl (status : BatchStatus) : follows status status = true := by cases status <;> rfl
theorem follows_sent {status : BatchStatus} : follows status .sent = true ↔ status = .pending ∨ status = .sent := by
  cases status <;> decide
theorem follows_pending {status : BatchStatus} : follows status .pending = true ↔ status = .pending := by
  cases status <;> decide
theorem follows_received {status : BatchStatus} : follows status .received = true ↔ status = .sent ∨ status = .received := by
  cases status <;> decide
theorem follows_cancelled {status : BatchStatus} : follows status .cancelled = true ↔ status ≠ .received := by
  cases status <;> decide
theorem follows_final {before after : BatchStatus} (step : follows before after = true) (closed : before = .received ∨ before = .cancelled) :
    after = before := by
  rcases closed with rfl | rfl
  · cases after <;> first | rfl | cases step
  · cases after <;> first | rfl | cases step

-- What a commit writes follows what is stored exactly when the session still fits.
def Heeds (depot : Depot) (status : Nat → Option BatchStatus) : Prop :=
  ∀ id before,depot.batches.row id = some before → follows before.status ((status id).getD before.status) = true
theorem heeds_put {depot : Depot} {batchId : Nat} (status : BatchStatus) : Heeds depot (fun id => if batchId = id then some status else none) ↔
    ∀ stored,depot.batches.row batchId = some stored → follows stored.status status = true := by
  constructor
  · intro heeds stored here
    simpa using heeds batchId stored here
  · intro each id before here
    by_cases same : batchId = id
    · subst same
      simpa using each before here
    · simp [same]

theorem fits_heeds {session : Session} (done : session.commits depot = .ok commits) :
    session.Fits depot ↔ Heeds depot fun id => session.writes depot id := by
  cases session with
  | send now batchId random input batch =>
    obtain ⟨toMark,selected,-⟩ := sendBatch_parts done
    simp only [Session.Fits,Session.writes,selected]
    constructor
    · intro fits id before here
      by_cases same : batchId = id
      · subst same
        have stored := fits toMark before rfl here
        cases whole : leavesWhole now batchId toMark depot with
        | true =>
          rw [if_pos whole] at stored
          simpa using follows_sent.mpr stored
        | false =>
          rw [if_neg (by simp [whole])] at stored
          cases taken : depot.keyTaken batch.sourceBranchId (splitKey now batchId random) with
          | true => simp
          | false => simpa using follows_pending.mpr (stored.resolve_left (by simp [taken]))
      · simp [same]
    · intro heeds toMark' stored same here
      cases same
      have follow := heeds batchId stored here
      dsimp only at follow
      rw [if_neg (not_not.mpr rfl)] at follow
      split
      · rename_i whole
        rw [if_pos whole] at follow
        exact follows_sent.mp follow
      · rename_i part
        rw [if_neg part] at follow
        by_cases taken : depot.keyTaken batch.sourceBranchId (splitKey now batchId random) = true
        · exact .inl taken
        · rw [if_neg taken] at follow
          exact .inr (follows_pending.mp follow)
  | receive now batchId requesterId batch =>
    simp only [Session.Fits,Session.writes,heeds_put,follows_received]
  | receiveOrders now batchId requesterId orderIds batch =>
    obtain ⟨selectedItems,scanned,-⟩ := error_bind_parts done
    simp only [Session.Fits,Session.writes,heeds_put,follows_received,scanned]
    exact ⟨fun fits stored => fits selectedItems stored rfl,fun heeds _ stored _ => heeds stored⟩
  | cancel now batchId batch =>
    simp only [Session.Fits,Session.writes,heeds_put,follows_cancelled]
  | cancelAll now batchIds removeOrderBindings =>
    have present : ∀ id ∈ batchIds,depot.batches.row id ≠ none := by
      cases cancelled : cancelBranchTransferBatches now batchIds removeOrderBindings depot with
      | error _ => rw [Session.commits,cancelled] at done; cases done
      | ok next => exact (cancelBatches_parts cancelled).1
    simp only [Session.Fits,Session.writes]
    constructor
    · intro fits id before here
      by_cases chosen : id ∈ batchIds
      · simpa [chosen] using follows_cancelled.mpr (fits present id chosen before here)
      · simp [chosen]
    · intro heeds _ id chosen stored here
      have follow := heeds id stored here
      dsimp only at follow
      rw [if_pos chosen] at follow
      exact follows_cancelled.mp follow

-- A session that is refused at its commit changes no batch, and always fits.
theorem refused_fits {session : Session} (done : session.commits depot = .error refused) : session.Fits depot := by
  cases session with
  | send now batchId random input batch =>
    intro toMark stored selected
    rw [Session.commits,sendBatch,selected] at done
    change (if _ then _ else if _ then _ else _) = _ at done
    split at done
    · cases done
    split at done
    · cases done
    · cases done
  | receive now batchId requesterId batch => cases done
  | receiveOrders now batchId requesterId orderIds batch =>
    intro selected stored scanned
    rw [Session.commits,receiveBatchOrders,scanned] at done
    cases done
  | cancel now batchId batch => cases done
  | cancelAll now batchIds removeOrderBindings =>
    intro present id chosen
    rw [Session.commits,cancelBranchTransferBatches,if_neg (by simpa using List.ne_nil_of_mem chosen)] at done
    rw [if_neg (by simpa using present)] at done
    cases done

-- Every session on its way knows a batch that is there.
structure Served (dispatch : Dispatch) : Prop where
  stocked : Stocked dispatch.depot
  known : ∀ session ∈ dispatch.sessions,session.Known dispatch.depot

theorem read_known {job : Job} (read : job.read depot = .ok session) : session.Known depot := by
  have found : ∀ {batchId batch},findBatch batchId depot = .ok batch → depot.batches.row batchId ≠ none ∧ batch.isDeleted = false :=
    fun found => ⟨by simp [(findBatch_parts found).1],(findBatch_parts found).2⟩
  cases job with
  | send now batchId random input =>
    obtain ⟨_,-,rest⟩ := error_bind_parts read
    obtain ⟨batch,here,rest⟩ := error_bind_parts rest
    obtain ⟨_,-,rest⟩ := error_bind_parts rest
    cases rest
    exact found here
  | receive now batchId requesterId =>
    obtain ⟨batch,here,rest⟩ := error_bind_parts read
    obtain ⟨_,-,rest⟩ := error_bind_parts rest
    cases rest
    exact found here
  | receiveOrders now batchId orderIds requesterId =>
    obtain ⟨_,-,rest⟩ := error_bind_parts read
    obtain ⟨batch,here,rest⟩ := error_bind_parts rest
    obtain ⟨_,-,rest⟩ := error_bind_parts rest
    cases rest
    exact found here
  | cancel now batchId reason =>
    simp only [Job.read] at read
    obtain ⟨_,reasoned,rest⟩ := error_bind_parts read
    obtain ⟨batch,here,rest⟩ := error_bind_parts rest
    obtain ⟨_,-,rest⟩ := error_bind_parts rest
    cases rest
    exact found here
  | cancelAll now batchIds removeOrderBindings =>
    cases read
    trivial
theorem known_later {session : Session} (known : session.Known depot) {status : Nat → Option BatchStatus} (writes : Writes depot next status) :
    session.Known next := by
  have present : ∀ {batchId},depot.batches.row batchId ≠ none → next.batches.row batchId ≠ none := by
    intro batchId here
    obtain ⟨before,stored⟩ := Option.ne_none_iff_exists'.mp here
    obtain ⟨after,found,-⟩ := writes batchId before stored
    simp [found]
  cases session with
  | send _ _ _ _ _ => exact ⟨present known.1,known.2⟩
  | receive _ _ _ _ => exact ⟨present known.1,known.2⟩
  | receiveOrders _ _ _ _ _ => exact ⟨present known.1,known.2⟩
  | cancel _ _ _ => exact ⟨present known.1,known.2⟩
  | cancelAll _ _ _ => trivial

-- A step opens or drops a session and leaves the tables, or applies one.
theorem next_cases (dispatch : Dispatch) (step : Step) :
    ((dispatch.next step).depot = dispatch.depot ∧ (dispatch.next step).applied = dispatch.applied ∧
      (∀ session ∈ (dispatch.next step).sessions,session ∈ dispatch.sessions ∨ ∃ job : Job,job.read dispatch.depot = .ok session) ∧
      FitsStored dispatch step) ∨
    ∃ index session commits,step = .commit index ∧ dispatch.sessions[index]? = some session ∧
      session.commits dispatch.depot = .ok commits ∧
      dispatch.next step = ⟨applyAll commits dispatch.depot,dispatch.sessions.eraseIdx index,dispatch.applied ++ [session]⟩ := by
  cases step with
  | read job =>
    left
    simp only [Dispatch.next]
    cases opened : job.read dispatch.depot with
    | error _ => exact ⟨rfl,rfl,fun session member => .inl member,trivial⟩
    | ok session =>
      refine ⟨rfl,rfl,fun other member => ?_,trivial⟩
      rcases List.mem_append.mp member with old | new
      · exact .inl old
      · exact .inr ⟨job,List.mem_singleton.mp new ▸ opened⟩
  | commit index =>
    simp only [Dispatch.next,FitsStored]
    cases picked : dispatch.sessions[index]? with
    | none => exact .inl ⟨rfl,rfl,fun session member => .inl member,fun session impossible => nomatch impossible⟩
    | some session => cases done : session.commits dispatch.depot with
      | error _ =>
        refine .inl ⟨by simp [done],by simp [done],fun other member => .inl ?_,fun other same => Option.some.inj same ▸ refused_fits done⟩
        simp only [done] at member
        exact List.mem_of_mem_eraseIdx member
      | ok commits => exact .inr ⟨index,session,commits,rfl,picked,done,by simp [done]⟩

theorem served_next {dispatch : Dispatch} (served : Served dispatch) (step : Step) : Served (dispatch.next step) := by
  rcases next_cases dispatch step with ⟨same,-,sessions,-⟩ | ⟨index,session,commits,-,picked,done,same⟩
  · refine ⟨same ▸ served.stocked,fun session member => ?_⟩
    rw [same]
    rcases sessions session member with old | ⟨job,read⟩
    · exact served.known session old
    · exact read_known read
  · have known := served.known session (List.mem_of_getElem? picked)
    obtain ⟨stocked,writes⟩ := commit_writes served.stocked known done
    rw [same]
    exact ⟨stocked,fun other member => known_later (served.known other (List.mem_of_mem_eraseIdx member)) writes⟩

theorem lawful_exact {dispatch : Dispatch} (served : Served dispatch) (step : Step) : Lawful dispatch step ↔ FitsStored dispatch step := by
  rcases next_cases dispatch step with ⟨same,-,-,fits⟩ | ⟨index,session,commits,rfl,picked,done,same⟩
  · refine iff_of_true (fun id before here => ⟨before,?_,follows_refl before.status⟩) fits
    rw [same]
    exact here
  · have known := served.known session (List.mem_of_getElem? picked)
    obtain ⟨-,writes⟩ := commit_writes served.stocked known done
    have fits : FitsStored dispatch (.commit index) ↔ session.Fits dispatch.depot := by
      simp only [FitsStored,picked,Option.some.injEq]
      exact ⟨fun each => each session rfl,fun fits other same => same ▸ fits⟩
    rw [fits,fits_heeds done,Lawful,same]
    constructor
    · intro lawful id before here
      obtain ⟨after,found,status⟩ := writes id before here
      obtain ⟨after',found',follow⟩ := lawful id before here
      cases found.symm.trans found'
      exact status ▸ follow
    · intro heeds id before here
      obtain ⟨after,found,status⟩ := writes id before here
      exact ⟨after,found,status ▸ heeds id before here⟩

-- A batch that was received stays received, one that was cancelled stays cancelled.
structure Closed (dispatch : Dispatch) : Prop where
  received : ∀ session ∈ dispatch.applied,∀ id,session.receives id = true →
    ∃ batch,dispatch.depot.batches.row id = some batch ∧ batch.status = .received
  cancelled : ∀ session ∈ dispatch.applied,∀ id,session.cancels id = true →
    ∃ batch,dispatch.depot.batches.row id = some batch ∧ batch.status = .cancelled

theorem receives_writes {session : Session} {id : Nat} (receives : session.receives id = true) : session.writes depot id = some .received := by
  cases session with
  | receive _ batchId _ _ => simpa [Session.receives,Session.writes] using receives
  | receiveOrders _ batchId _ _ _ => simpa [Session.receives,Session.writes] using receives
  | _ => cases receives
theorem cancels_writes {session : Session} {id : Nat} (cancels : session.cancels id = true) : session.writes depot id = some .cancelled := by
  cases session with
  | cancel _ batchId _ => simpa [Session.cancels,Session.writes] using cancels
  | cancelAll _ batchIds _ => simpa [Session.cancels,Session.writes] using cancels
  | _ => cases cancels
theorem commit_present {session : Session} {id : Nat} (known : session.Known depot) (done : session.commits depot = .ok commits)
    (names : session.receives id = true ∨ session.cancels id = true) : depot.batches.row id ≠ none := by
  cases session with
  | receive _ batchId _ _ => simp_all [Session.receives,Session.cancels,Session.Known]
  | receiveOrders _ batchId _ _ _ => simp_all [Session.receives,Session.cancels,Session.Known]
  | cancel _ batchId _ => simp_all [Session.receives,Session.cancels,Session.Known]
  | cancelAll now batchIds removeOrderBindings =>
    cases cancelled : cancelBranchTransferBatches now batchIds removeOrderBindings depot with
    | error _ => rw [Session.commits,cancelled] at done; cases done
    | ok next => exact (cancelBatches_parts cancelled).1 id (by simpa [Session.receives,Session.cancels] using names)
  | send _ _ _ _ _ => simp [Session.receives,Session.cancels] at names

theorem closed_next {dispatch : Dispatch} {step : Step} (served : Served dispatch) (lawful : Lawful dispatch step) (closed : Closed dispatch) :
    Closed (dispatch.next step) := by
  have stays : ∀ {id status},status = .received ∨ status = .cancelled →
      (∃ batch,dispatch.depot.batches.row id = some batch ∧ batch.status = status) →
        ∃ batch,(dispatch.next step).depot.batches.row id = some batch ∧ batch.status = status := by
    rintro id status final ⟨batch,here,rfl⟩
    obtain ⟨after,found,follow⟩ := lawful id batch here
    exact ⟨after,found,follows_final follow final⟩
  rcases next_cases dispatch step with ⟨-,applied,-,-⟩ | ⟨index,session,commits,rfl,picked,done,same⟩
  · constructor
    · intro session member id receives
      exact stays (.inl rfl) (closed.received session (applied ▸ member) id receives)
    · intro session member id cancels
      exact stays (.inr rfl) (closed.cancelled session (applied ▸ member) id cancels)
  · have known := served.known session (List.mem_of_getElem? picked)
    obtain ⟨-,writes⟩ := commit_writes served.stocked known done
    have own : ∀ {id status},(session.receives id = true ∨ session.cancels id = true) → session.writes dispatch.depot id = some status →
        ∃ batch,(dispatch.next (.commit index)).depot.batches.row id = some batch ∧ batch.status = status := by
      intro id status names written
      obtain ⟨before,here⟩ := Option.ne_none_iff_exists'.mp (commit_present known done names)
      obtain ⟨after,found,status⟩ := writes id before here
      exact ⟨after,by rw [same]; exact found,by simp [status,written]⟩
    have applied : (dispatch.next (.commit index)).applied = dispatch.applied ++ [session] := by rw [same]
    constructor
    · intro other member id receives
      rcases List.mem_append.mp (applied ▸ member) with old | new
      · exact stays (.inl rfl) (closed.received other old id receives)
      · cases List.mem_singleton.mp new
        exact own (.inl receives) (receives_writes receives)
    · intro other member id cancels
      rcases List.mem_append.mp (applied ▸ member) with old | new
      · exact stays (.inr rfl) (closed.cancelled other old id cancels)
      · cases List.mem_singleton.mp new
        exact own (.inr cancels) (cancels_writes cancels)

theorem idle_served {depot : Depot} (stocked : Stocked depot) : Served (idle depot) :=
  ⟨stocked,fun _ member => (List.not_mem_nil member).elim⟩
theorem idle_closed (depot : Depot) : Closed (idle depot) :=
  ⟨fun _ member => (List.not_mem_nil member).elim,fun _ member => (List.not_mem_nil member).elim⟩

theorem batches_one_way (ops : List Op) (steps : List Step) :
    OneWay (idle (performAll emptyDepot ops)) steps ↔
      Runs.Meets Dispatch.next FitsStored (idle (performAll emptyDepot ops)) steps := by
  let start := idle (performAll emptyDepot ops)
  have served : Served start := idle_served (reached_stocked ops)
  have exact : Runs.Meets Dispatch.next Lawful start steps ↔ Runs.Meets Dispatch.next FitsStored start steps :=
    Runs.meets_congr (P:=Served) (fun _ step served => served_next served step) (fun _ step served => lawful_exact served step) served
  rw [←exact]
  refine ⟨fun oneWay => Runs.meets_reached.mpr oneWay.path,fun lawful => ⟨Runs.meets_reached.mp lawful,?_,?_⟩⟩
  · intro front later reached id batch here final
    obtain ⟨rest,rfl⟩ := reached
    have before := (Runs.meets_append.mp lawful).1
    have kept := Runs.run_keeps_later (P:=fun _ => True)
      (Q:=fun dispatch => ∃ found,dispatch.depot.batches.row id = some found ∧ found.status = batch.status) (fun _ _ _ _ => trivial)
      (by
        rintro dispatch step - lawful ⟨found,there,same⟩
        obtain ⟨after,last,follow⟩ := lawful id found there
        exact ⟨after,last,(follows_final follow (same ▸ final)).trans same⟩) trivial before ⟨batch,here,rfl⟩
    exact kept
  · rintro front reached id ⟨⟨received,inReceived,receives⟩,cancelled,inCancelled,cancels⟩
    have both := Runs.run_keeps_reached (P:=fun dispatch => Served dispatch ∧ Closed dispatch)
      (fun dispatch step held lawful => ⟨served_next held.1 step,closed_next held.1 lawful held.2⟩)
      ⟨served,idle_closed _⟩ lawful reached
    obtain ⟨batch,here,isReceived⟩ := both.2.received received inReceived id receives
    obtain ⟨batch',here',isCancelled⟩ := both.2.cancelled cancelled inCancelled id cancels
    cases here.symm.trans here'
    rw [isReceived] at isCancelled
    cases isCancelled

-- A bulk cancellation takes back a batch that was received.
def delivered : Depot := performAll packed [.send 11 1 "ff" (truck [1,2]),.receive 12 1 (some 9)]
theorem delivered_received : (delivered.batches.row 1).map (·.status) = some .received := by decide
theorem delivered_cancelled : (((idle delivered).next (.read (.cancelAll 13 [1] true))).next (.commit 0)).depot.batches.row 1 ≠ none ∧
    ∀ batch ∈ (((idle delivered).next (.read (.cancelAll 13 [1] true))).next (.commit 0)).depot.batches.row 1,batch.status = .cancelled := by
  decide
theorem batches_return : ¬∀ ops steps,OneWay (idle (performAll emptyDepot ops)) steps := by
  intro all
  have oneWay := all [parcel 100,parcel 250,.createTransfer 10 transfer,.send 11 1 "ff" (truck [1,2]),.receive 12 1 (some 9)]
    [.read (.cancelAll 13 [1] true),.commit 0]
  have same : performAll emptyDepot [parcel 100,parcel 250,.createTransfer 10 transfer,.send 11 1 "ff" (truck [1,2]),
      .receive 12 1 (some 9)] = delivered := by
    rw [delivered,←twoParcels_packed]
    rfl
  rw [same] at oneWay
  obtain ⟨before,here,received⟩ := Option.map_eq_some_iff.mp delivered_received
  obtain ⟨after,found,follow⟩ := oneWay.path [.read (.cancelAll 13 [1] true)] (.commit 0) (List.prefix_refl _) 1 before here
  rw [received,delivered_cancelled.2 after found] at follow
  cases follow

end Elchi.Batches
