import Elchi.BindingRuns
import Mathlib.Algebra.BigOperators.Group.List.Basic
namespace Elchi.Batches
open Orders RowLock

theorem perform_one {op : Op} {result : Except RpcError Depot} (commits : op.commits depot = oneCommit result) :
    op.perform depot = orKeep depot result := by
  unfold Op.perform
  rw [commits]
  cases result with
  | error _ => rfl
  | ok next => rfl

-- The three ways of a send: the batch leaves as it is, the key of the part is taken and the
-- marks are all that is written, or a part leaves.
theorem sendBatch_parts (sent : sendBatch now batchId random input batch depot = .ok commits) :
    ∃ toMark,itemsToMark (depot.liveItems batchId) input.orderIds.eraseDups = .ok toMark ∧
      ((∀ item ∈ (markSent now batchId (toMark.map (·.orderId)) depot).liveItems batchId,item.sentAt.isSome = true) ∧
          commits = [markSent now batchId (toMark.map (·.orderId)),(·.saveBatch batchId (sentBatch now input batch)),
            sendOrders now batchId batchId batch (toMark.map (·.orderId))] ++ trackEach (sendEvents batch (toMark.map (·.orderId)) depot) ∨
        (¬∀ item ∈ (markSent now batchId (toMark.map (·.orderId)) depot).liveItems batchId,item.sentAt.isSome = true) ∧
          depot.keyTaken batch.sourceBranchId (splitKey now batchId random) = true ∧ commits = [markSent now batchId (toMark.map (·.orderId))] ∨
        (¬∀ item ∈ (markSent now batchId (toMark.map (·.orderId)) depot).liveItems batchId,item.sentAt.isSome = true) ∧
          depot.keyTaken batch.sourceBranchId (splitKey now batchId random) = false ∧
          commits = [markSent now batchId (toMark.map (·.orderId)),(·.insertBatch (splitBatch now batchId random input toMark batch)),
            moveTo batchId depot.nextBatchId (toMark.map (·.orderId)),
            (·.saveBatch batchId (remainingBatch (((markSent now batchId (toMark.map (·.orderId)) depot).liveItems batchId).filter
              fun item => item.sentAt.isNone) batch)),
            sendOrders now batchId depot.nextBatchId batch (toMark.map (·.orderId))] ++
            trackEach (sendEvents batch (toMark.map (·.orderId)) depot)) := by
  unfold sendBatch at sent
  cases selected : itemsToMark (depot.liveItems batchId) input.orderIds.eraseDups with
  | error refused => rw [selected] at sent; cases sent
  | ok toMark =>
  rw [selected] at sent
  refine ⟨toMark,rfl,?_⟩
  change (if _ then _ else _) = _ at sent
  split at sent
  · rename_i all
    cases sent
    exact .inl ⟨List.all_eq_true.mp all,rfl⟩
  rename_i notAll
  split at sent
  · rename_i taken
    cases sent
    exact .inr (.inl ⟨fun all => notAll (List.all_eq_true.mpr all),taken,rfl⟩)
  · rename_i free
    cases sent
    refine .inr (.inr ⟨fun all => notAll (List.all_eq_true.mpr all),Bool.eq_false_iff.mpr free,rfl⟩)

theorem sendBranch_parts (sent : sendBranchTransferBatch now batchId random input depot = .ok commits) :
    ∃ batch,depot.batches.row batchId = some batch ∧ isOpen batch.status = true ∧ checkSendInput input = .ok () ∧
      sendBatch now batchId random input batch depot = .ok commits := by
  obtain ⟨_,checked,rest⟩ := error_bind_parts sent
  obtain ⟨batch,found,rest⟩ := error_bind_parts rest
  obtain ⟨_,allowed,rest⟩ := error_bind_parts rest
  refine ⟨batch,(findBatch_parts found).1,?_,checked,rest⟩
  unfold checkSend at allowed
  cases status : batch.status with
  | pending => rfl
  | sent => rfl
  | received => rw [status] at allowed; cases allowed
  | cancelled => rw [status] at allowed; cases allowed

-- A send takes a part of a batch out of it.
def Splits (now batchId : Nat) (random : String) (input : SendInput) (depot : Depot) : Prop :=
  ∃ batch toMark,depot.batches.row batchId = some batch ∧ isOpen batch.status = true ∧ checkSendInput input = .ok () ∧
    itemsToMark (depot.liveItems batchId) input.orderIds.eraseDups = .ok toMark ∧
    (∃ item ∈ depot.liveItems batchId,item.sentAt = none ∧ item.orderId ∉ toMark.map (·.orderId)) ∧
    depot.keyTaken batch.sourceBranchId (splitKey now batchId random) = false

section Splitting
variable {depot : Depot} {now batchId : Nat} {toMark : List BatchItem}

theorem liveItems_unique (unique : (depot.items.map itemKey).Nodup) (batchId : Nat) : ((depot.liveItems batchId).map (·.orderId)).Nodup := by
  have keys : ((depot.liveItems batchId).map itemKey).Nodup := List.Nodup.sublist (List.Sublist.map _ List.filter_sublist) unique
  have same : (depot.liveItems batchId).map itemKey = ((depot.liveItems batchId).map (·.orderId)).map fun orderId => (batchId,orderId) := by
    rw [List.map_map]
    apply List.map_congr_left
    intro item member
    simp only [itemKey,Function.comp_apply,(mem_liveItems.mp member).2.1]
  rw [same] at keys
  exact List.Nodup.of_map _ keys

theorem toMark_perm (unique : (depot.items.map itemKey).Nodup) (inside : ∀ item ∈ toMark,item ∈ depot.liveItems batchId)
    (distinct : (toMark.map (·.orderId)).Nodup) :
    toMark.Perm ((depot.liveItems batchId).filter fun item => decide (item.orderId ∈ toMark.map (·.orderId))) := by
  have unique := liveItems_unique unique batchId
  apply (List.perm_ext_iff_of_nodup (List.Nodup.of_map _ distinct) (List.Nodup.filter _ (List.Nodup.of_map _ unique))).mpr
  intro item
  rw [List.mem_filter,decide_eq_true_eq]
  constructor
  · exact fun member => ⟨inside item member,List.mem_map.mpr ⟨item,member,rfl⟩⟩
  · rintro ⟨listed,chosen⟩
    obtain ⟨other,member,same⟩ := List.mem_map.mp chosen
    exact List.inj_on_of_nodup_map unique (inside other member) listed same ▸ member

-- Of a batch with nothing marked before, what stays unsent is what was not selected.
theorem unsent_rest (clean : ∀ item ∈ depot.liveItems batchId,item.sentAt = none) (ids : List Nat) :
    ((markSent now batchId ids depot).liveItems batchId).filter (fun item => item.sentAt.isNone) =
      ((markSent now batchId ids depot).liveItems batchId).filter fun item => !decide (item.orderId ∈ ids) := by
  apply List.filter_congr
  intro item member
  rw [mark_liveItems] at member
  obtain ⟨old,listed,rfl⟩ := List.mem_map.mp member
  by_cases chosen : old.orderId ∈ ids
  · simp [(mem_liveItems.mp listed).2.1,chosen]
  · simp [chosen,clean old listed]

theorem sendSplit_bound (bound : Bound depot) (stored : depot.batches.row batchId = some batch) (wasOpen : isOpen batch.status = true)
    (inside : ∀ item ∈ toMark,item ∈ depot.liveItems batchId) (distinct : (toMark.map (·.orderId)).Nodup)
    (clean : ∀ item ∈ depot.liveItems batchId,item.sentAt = none) :
    Bound (splitDepot now batchId (toMark.map (·.orderId)) batch (splitBatch now batchId random input toMark batch)
      (remainingBatch (((markSent now batchId (toMark.map (·.orderId)) depot).liveItems batchId).filter fun item => item.sentAt.isNone) batch)
      (markSent now batchId (toMark.map (·.orderId)) depot)) := by
  let ids := toMark.map (·.orderId)
  have perm := toMark_perm bound.unique inside distinct
  have part : ((markSent now batchId ids depot).liveItems batchId).filter (fun item => decide (item.orderId ∈ ids)) =
      markItems now batchId ids ((depot.liveItems batchId).filter fun item => decide (item.orderId ∈ ids)) := by
    rw [mark_liveItems]
    exact markItems_filter _ (fun _ _ => rfl) _
  apply split_bound (mark_bound bound) stored wasOpen rfl rfl rfl
  · exact bound.kept batchId batch stored
  · rw [part,markItems_total,markItems,List.length_map]
    exact ⟨perm.length_eq,(perm.map _).sum_eq⟩
  · rw [←unsent_rest clean]
    exact ⟨rfl,rfl⟩
  · intro orderId member
    obtain ⟨item,chosen,same⟩ := List.mem_map.mp member
    rw [mark_liveItems,markItems_orders]
    exact List.mem_map.mpr ⟨item,inside item chosen,same⟩

theorem send_bound (bound : Bound depot) (sent : sendBranchTransferBatch now batchId random input depot = .ok commits)
    (clean : Splits now batchId random input depot → ∀ item ∈ depot.liveItems batchId,item.sentAt = none) :
    Bound (applyAll commits depot) := by
  obtain ⟨batch,stored,wasOpen,checked,sent⟩ := sendBranch_parts sent
  obtain ⟨toMark,selected,ways⟩ := sendBatch_parts sent
  obtain ⟨each,distinct,-⟩ := itemsToMark_parts selected (eraseDups_nodup _)
  rcases ways with ⟨-,rfl⟩ | ⟨-,-,rfl⟩ | ⟨part,free,rfl⟩
  · simp only [applyAll,List.foldl_append]
    exact applyAll_tracks (fun _ event held => track_bound event held) _ (sendWhole_bound (mark_bound bound) stored wasOpen input)
  · exact mark_bound bound
  · simp only [applyAll,List.foldl_append]
    apply applyAll_tracks fun _ event held => track_bound event held
    apply sendSplit_bound bound stored wasOpen (fun item member => (each item member).1) distinct
    apply clean
    refine ⟨batch,toMark,stored,wasOpen,checked,selected,?_,free⟩
    by_contra none
    apply part
    intro item member
    rw [mark_liveItems] at member
    obtain ⟨old,listed,rfl⟩ := List.mem_map.mp member
    by_cases chosen : old.orderId ∈ toMark.map (·.orderId)
    · simp [(mem_liveItems.mp listed).2.1,chosen]
    · rw [if_neg fun both => chosen both.2]
      cases time : old.sentAt with
      | none => exact absurd ⟨old,listed,time,chosen⟩ none
      | some _ => rfl
end Splitting

theorem scanned_sublist (scanned : scannedItems items orderIds = .ok selectedItems) : selectedItems.Sublist items := by
  unfold scannedItems at scanned
  dsimp only at scanned
  split at scanned
  · cases scanned
  split at scanned
  · cases scanned
  split at scanned
  · cases scanned
  · cases scanned
    exact List.filter_sublist
theorem receiveSelected_scanned (scanned : scannedItems items orderIds = .ok selectedItems) : ∀ item ∈ selectedItems,item ∈ items :=
  fun _ member => (scanned_sublist scanned).subset member

theorem receive_parts (done : receiveBranchTransferBatch now batchId requesterId depot = .ok next) :
    ∃ batch,depot.batches.row batchId = some batch ∧ batch.status = .sent ∧ next = receiveBatch now (requesterId.getD 0) batchId batch depot := by
  obtain ⟨batch,found,rest⟩ := error_bind_parts done
  obtain ⟨_,allowed,rest⟩ := error_bind_parts rest
  cases rest
  refine ⟨batch,(findBatch_parts found).1,?_,rfl⟩
  unfold checkReceive at allowed
  cases status : batch.status with
  | sent => rfl
  | pending => rw [status] at allowed; cases allowed
  | received => rw [status] at allowed; cases allowed
  | cancelled => rw [status] at allowed; cases allowed

theorem receiveOrders_parts (done : receiveBranchTransferBatchOrders now batchId orderIds requesterId depot = .ok commits) :
    ∃ batch selectedItems remaining,depot.batches.row batchId = some batch ∧ batch.status = .sent ∧
      scannedItems (depot.liveItems batchId) orderIds.eraseDups = .ok selectedItems ∧
      commits = [receiveSelected now (requesterId.getD 0) batchId batch selectedItems,
        fun current => orKeep current (rebatch now batchId batch remaining current)] := by
  obtain ⟨_,-,rest⟩ := error_bind_parts done
  obtain ⟨batch,found,rest⟩ := error_bind_parts rest
  obtain ⟨_,allowed,rest⟩ := error_bind_parts rest
  obtain ⟨selectedItems,scanned,rest⟩ := error_bind_parts rest
  cases rest
  refine ⟨batch,selectedItems,_,(findBatch_parts found).1,?_,scanned,rfl⟩
  unfold checkReceiveOrders at allowed
  cases status : batch.status with
  | sent => rfl
  | pending => rw [status] at allowed; cases allowed
  | received => rw [status] at allowed; cases allowed
  | cancelled => rw [status] at allowed; cases allowed

theorem rebatch_bound (bound : Bound depot) (done : rebatch now batchId batch remaining depot = .ok next) : Bound next := by
  unfold rebatch at done
  dsimp only at done
  split at done
  · cases done
    exact bound
  split at done
  · exact createReturn_bound bound done
  · exact createTransfer_bound bound done

theorem cancel_parts (done : cancelBranchTransferBatch now batchId reason depot = .ok next) :
    ∃ batch,depot.batches.row batchId = some batch ∧ isOpen batch.status = true ∧ checkReason reason = .ok () ∧
      next = cancelBatch now batchId batch depot := by
  unfold cancelBranchTransferBatch at done
  obtain ⟨_,reasoned,rest⟩ := error_bind_parts done
  obtain ⟨batch,found,rest⟩ := error_bind_parts rest
  obtain ⟨_,allowed,rest⟩ := error_bind_parts rest
  cases rest
  refine ⟨batch,(findBatch_parts found).1,?_,reasoned,rfl⟩
  unfold checkCancel at allowed
  cases status : batch.status with
  | pending => rfl
  | sent => rfl
  | received => rw [status] at allowed; cases allowed
  | cancelled => rw [status] at allowed; cases allowed

theorem bulkAssign_parts (done : bulkAssignBatch now batchId orderIds messageId depot = .ok next) : next = depot ∨
    ∃ message,normalizeInboxMessageId messageId = .ok message ∧ ("order.bulk_assign_batch",message) ∉ depot.inbox ∧ orderIds ≠ [] ∧
      affected (unbound orderIds.eraseDups) depot.orders = orderIds.eraseDups.length ∧
      next = {depot with
        inbox:=("order.bulk_assign_batch",message) :: depot.inbox,
        orders:=updateWhere now (unbound orderIds.eraseDups) (bindTo batchId) depot.orders} := by
  obtain ⟨message,named,rest⟩ := error_bind_parts done
  dsimp only at rest
  split at rest
  · cases rest
  rename_i some
  split at rest
  · cases rest
    exact .inl rfl
  · rename_i fresh
    obtain ⟨all,rfl⟩ := bindOrders_parts rest
    refine .inr ⟨message,named,by simpa using fresh,?_,all,rfl⟩
    rintro rfl
    exact some (by simp)

theorem bulkRemove_parts (done : bulkRemoveFromBatch now batchId messageId depot = .ok next) : next = depot ∨
    ∃ message,normalizeInboxMessageId messageId = .ok message ∧ ("order.bulk_remove_from_batch",message) ∉ depot.inbox ∧
      next = {depot with
        inbox:=("order.bulk_remove_from_batch",message) :: depot.inbox,
        orders:=updateWhere now (fun _ order => order.currentBatchId == some batchId) unbind depot.orders} := by
  obtain ⟨message,named,rest⟩ := error_bind_parts done
  split at rest
  · cases rest
    exact .inl rfl
  · rename_i fresh
    cases rest
    exact .inr ⟨message,named,by simpa using fresh,rfl⟩

-- What the operation must find: the bulk commands move the orders' column alone, and a
-- bulk cancellation may leave it.
def KeepsBinding (depot : Depot) : Op → Prop
  | .bulkAssign _ _ orderIds messageId => ¬∃ message,normalizeInboxMessageId messageId = .ok message ∧
      ("order.bulk_assign_batch",message) ∉ depot.inbox ∧ orderIds ≠ [] ∧
      ∀ id ∈ orderIds,∃ row,depot.orders.row id = some row ∧ row.order.isDeleted = false ∧ row.order.currentBatchId = none
  | .bulkRemove _ batchId messageId => ∀ message,normalizeInboxMessageId messageId = .ok message →
      ("order.bulk_remove_from_batch",message) ∉ depot.inbox → ∀ orderId,depot.pointer orderId ≠ some batchId
  | .cancelBatches _ batchIds removeOrderBindings => removeOrderBindings = true ∨ (∃ id ∈ batchIds,depot.batches.row id = none) ∨
      ∀ orderId id,depot.pointer orderId = some id → id ∉ batchIds
  | .send now batchId random input => Splits now batchId random input depot → ∀ item ∈ depot.liveItems batchId,item.sentAt = none
  | _ => True

def Op.onBatches : Op → Bool
  | .createTransfer _ _ => true
  | .createReturn _ _ => true
  | .bulkAssign _ _ _ _ => true
  | .bulkRemove _ _ _ => true
  | .send _ _ _ _ => true
  | .receive _ _ _ => true
  | .receiveOrders _ _ _ _ => true
  | .cancelBatch _ _ _ => true
  | .cancelBatches _ _ _ => true
  | _ => false

theorem orKeep_keeps {P : Depot → Prop} {result : Except RpcError Depot} (holds : P depot) (keeps : ∀ next,result = .ok next → P next) :
    P (orKeep depot result) := by
  cases result with
  | error _ => exact holds
  | ok next => exact keeps next rfl
theorem perform_keeps {P : Depot → Prop} {op : Op} (holds : P depot) (keeps : ∀ commits,op.commits depot = .ok commits → P (applyAll commits depot)) :
    P (op.perform depot) := by
  unfold Op.perform
  split
  · rename_i commits done
    exact keeps commits done
  · exact holds

theorem bulkRemove_bound (bound : Bound depot) (nowhere : ∀ orderId,depot.pointer orderId ≠ some batchId) (inbox : List (String × String)) :
    Bound {depot with
      inbox:=inbox,orders:=updateWhere now (fun _ order => order.currentBatchId == some batchId) unbind depot.orders} := by
  have pointer : ∀ orderId,Depot.pointer {depot with
      inbox:=inbox,orders:=updateWhere now (fun _ order => order.currentBatchId == some batchId) unbind depot.orders} orderId =
        depot.pointer orderId := by
    intro orderId
    simp only [Depot.pointer,updateWhere_row]
    cases here : depot.orders.row orderId with
    | none => rfl
    | some row =>
      have elsewhere : (row.order.currentBatchId == some batchId) = false := by
        rw [beq_eq_false_iff_ne]
        exact fun points => nowhere orderId (pointer_some.mpr ⟨row,here,points⟩)
      simp [setColumns,elsewhere]
  refine ⟨?_,bound.batchKeyed,bound.below,bound.unique,bound.itemsBelow,bound.kept,?_,bound.counted,?_⟩
  · dsimp only
    exact updateWhere_keyed _ _ _ bound.keyed
  · intro id isOpen orderId
    rw [pointer]
    exact bound.listed id isOpen orderId
  · intro orderId id points
    rw [pointer] at points
    obtain ⟨alive,isOpen⟩ := bound.pointed orderId id points
    refine ⟨Eq.trans ?_ alive,isOpen⟩
    simp only [Depot.alive,updateWhere_row]
    exact alive_kept fun row => setColumns_live unbind_live

theorem step_bound {op : Op} (listed : op.onBatches = true) (bound : Bound depot) (keeps : KeepsBinding depot op) : Bound (op.perform depot) := by
  cases op with
  | createTransfer now input =>
    rw [perform_one rfl]
    exact orKeep_keeps bound fun next created => createTransfer_bound bound created
  | createReturn now input =>
    rw [perform_one rfl]
    exact orKeep_keeps bound fun next created => createReturn_bound bound created
  | bulkAssign now batchId orderIds messageId =>
    rw [perform_one rfl]
    apply orKeep_keeps bound
    intro next done
    rcases bulkAssign_parts done with rfl | ⟨message,named,fresh,some,all,-⟩
    · exact bound
    · refine absurd ⟨message,named,fresh,some,fun id member => ?_⟩ keeps
      exact affected_all bound.keyed all id (List.mem_eraseDups.mpr member)
  | bulkRemove now batchId messageId =>
    rw [perform_one rfl]
    apply orKeep_keeps bound
    intro next done
    rcases bulkRemove_parts done with rfl | ⟨message,named,fresh,rfl⟩
    · exact bound
    · exact bulkRemove_bound bound (keeps message named fresh) _
  | send now batchId random input => exact perform_keeps bound fun commits sent => send_bound bound sent keeps
  | receive now batchId requesterId =>
    rw [perform_one rfl]
    apply orKeep_keeps bound
    intro next done
    obtain ⟨batch,stored,isSent,rfl⟩ := receive_parts done
    exact receiveBatch_bound bound stored isSent
  | receiveOrders now batchId orderIds requesterId =>
    apply perform_keeps bound
    intro commits done
    obtain ⟨batch,selectedItems,remaining,stored,isSent,scanned,rfl⟩ := receiveOrders_parts done
    have received : Bound (receiveSelected now (requesterId.getD 0) batchId batch selectedItems depot) :=
      receiveSelected_bound bound stored isSent (receiveSelected_scanned scanned)
    exact orKeep_keeps received fun next done => rebatch_bound received done
  | cancelBatch now batchId reason =>
    rw [perform_one rfl]
    apply orKeep_keeps bound
    intro next done
    obtain ⟨batch,stored,-,-,rfl⟩ := cancel_parts done
    exact cancelBatch_bound bound stored
  | cancelBatches now batchIds removeOrderBindings =>
    rw [perform_one rfl]
    apply orKeep_keeps bound
    intro next done
    apply cancelBatches_bound bound done
    rcases keeps with removes | ⟨id,member,missing⟩ | nowhere
    · exact .inl removes
    · exact absurd missing ((cancelBatches_parts done).1 id member)
    · exact .inr nowhere
  | _ => cases listed

-- Orders of any kind, none of them in a batch yet.
structure Unbatched (depot : Depot) : Prop where
  keyed : depot.orders.Keyed
  batches : depot.batches = []
  items : depot.items = []
  unbound : ∀ entry ∈ depot.orders,entry.2.order.currentBatchId = none

theorem unbatched_bound (start : Unbatched depot) : Bound depot := by
  have none : ∀ id,depot.batches.row id = none := fun id => by rw [start.batches]; rfl
  have nowhere : ∀ orderId id,depot.pointer orderId ≠ some id := by
    intro orderId id points
    obtain ⟨row,here,current⟩ := pointer_some.mp points
    have idle := start.unbound (orderId,row) ((row_exact start.keyed).mpr here)
    rw [idle] at current
    cases current
  refine ⟨start.keyed,?_,?_,?_,?_,?_,?_,?_,?_⟩
  · rw [start.batches]
    exact List.nodup_nil
  · exact fun id present => absurd (none id) present
  · rw [start.items]
    exact List.nodup_nil
  · rw [start.items]
    exact fun item member => nomatch member
  · intro id batch stored
    rw [none] at stored
    cases stored
  · rintro id ⟨batch,stored,-⟩
    rw [none] at stored
    cases stored
  · intro id batch stored
    rw [none] at stored
    cases stored
  · exact fun orderId id points => absurd points (nowhere orderId id)

theorem batches_stay_bound {depot : Depot} {ops : List Op} (start : Unbatched depot) (listed : ∀ op ∈ ops,op.onBatches = true)
    (keeps : MeetsAll KeepsBinding depot ops) : ∀ front,front <+: ops → Binding (performAll depot front) := by
  intro front reached
  apply bound_binding
  have meets := Runs.meets_and keeps (Runs.meets_mem listed)
  exact Runs.run_keeps_reached (fun s op bound met => step_bound met.2 bound met.1) (unbatched_bound start) meets reached

-- Two orders of a branch, carried by one batch of which a part leaves first.
def hub : Lookups :=
  {posts:=fun _ => none,markets:=fun _ => none,couriers:=fun _ => none,users:=fun _ => none,branches:=fun _ => none,
   cashboxes:=fun _ _ => none,extraCosts:=fun _ _ => none,hqBranchId:=some 1,wasSentFromHqToBranch:=fun _ => false,
   fileExists:=fun _ => false,now:=5}
def parcel (price : Int) : Op :=
  .create hub none {marketId:=7,customerId:=8,branchId:=some 2,regionId:=some 3,totalPrice:=some price} none "token"
def truck (orderIds : List Nat) : SendInput := ⟨orderIds,"01A777AA","driver","+998"⟩
def twoParcels : Depot := performAll emptyDepot [parcel 100,parcel 250]
def transfer : TransferInput := ⟨2,4,[],.forward,some "transfer-1"⟩
def packed : Depot :=
  {twoParcels with
    batches:=[(1,{newBatch 10 2 4 .forward 3 "transfer-1" with orderCount:=2,totalPrice:=350})],nextBatchId:=2,
    items:=[⟨1,1,100,7,none,false⟩,⟨1,2,250,7,none,false⟩],
    orders:=updateWhere 10 (unbound [1,2]) (bindTo 1) twoParcels.orders}

def packedTo (destinationBranchId : Nat) : Depot :=
  {packed with batches:=[(1,{newBatch 10 2 destinationBranchId .forward 3 "transfer-1" with orderCount:=2,totalPrice:=350})]}

theorem twoParcels_to (destinationBranchId : Nat) :
    (Op.createTransfer 10 {transfer with destinationBranchId:=destinationBranchId}).perform twoParcels = packedTo destinationBranchId := by
  have key : normalizeTransferRequestKey transfer.requestKey = .ok "transfer-1" := by decide
  have sorted : byCreation (twoParcels.orders.select (unassignedNew transfer.sourceBranchId transfer.orderIds.eraseDups)) =
      twoParcels.orders := List.mergeSort_of_pairwise (by decide)
  have created : createBranchTransferBatches 10 {transfer with destinationBranchId:=destinationBranchId} twoParcels =
      .ok (packedTo destinationBranchId) := by
    unfold createBranchTransferBatches
    dsimp only
    rw [key]
    dsimp only [bind,Except.bind]
    rw [sorted,show twoParcels.pendingBatches transfer.sourceBranchId destinationBranchId transfer.direction = [] from rfl,
      List.mergeSort_nil]
    rfl
  rw [perform_one rfl,created]
  rfl
theorem twoParcels_packed : (Op.createTransfer 10 transfer).perform twoParcels = packed := twoParcels_to 4

def shipment : List Op := [.createTransfer 10 transfer,.send 11 1 "ff" (truck [1]),.receive 12 2 (some 9),.cancelBatch 13 1 "no truck left today"]
theorem batches_stay_bound_shipment : (∀ front,front <+: shipment → Binding (performAll twoParcels front)) ∧
    ((performAll twoParcels shipment).batches.map fun entry => (entry.1,entry.2.status,entry.2.orderCount)) =
      [(1,.cancelled,1),(2,.received,1)] := by
  have unsent : ∀ item ∈ packed.liveItems 1,item.sentAt = none := by decide
  have after : performAll twoParcels shipment = performAll packed shipment.tail := by
    rw [←twoParcels_packed]
    rfl
  refine ⟨batches_stay_bound ⟨by decide,rfl,rfl,by decide⟩ (by decide) ⟨trivial,?_,trivial,trivial,trivial⟩,?_⟩
  · intro _
    dsimp only
    rw [twoParcels_packed]
    exact unsent
  · rw [after]
    decide

-- A bulk command binds an order to a batch that does not exist.
theorem batches_lose_binding : ¬∀ depot ops,Unbatched depot → (∀ op ∈ ops,op.onBatches = true) → Binding (performAll depot ops) := by
  intro all
  have binding := all twoParcels [.bulkAssign 9 99 [1] (some "assign-1")] ⟨by decide,rfl,rfl,by decide⟩ (by decide)
  have bound : Depot.pointer (performAll twoParcels [.bulkAssign 9 99 [1] (some "assign-1")]) 1 = some 99 := by decide
  obtain ⟨row,here,current⟩ := pointer_some.mp bound
  obtain ⟨batch,stored,-⟩ := binding.pointed 1 row 99 here current
  cases stored

end Elchi.Batches
