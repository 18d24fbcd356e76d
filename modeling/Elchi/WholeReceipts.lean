import Elchi.OrderPassages
import Elchi.SendSplits
namespace Elchi.Batches
open Orders RowLock

-- Two outcomes that tell the same of every order and of the batch.
structure SameReceipt (batchId : Nat) (left right : Depot) : Prop where
  threads : ∀ id,left.thread id = right.thread id
  pointers : ∀ id,left.pointer id = right.pointer id
  batch : (left.batches.row batchId).map (fun batch => (batch.status,batch.orderCount,batch.totalPrice)) =
    (right.batches.row batchId).map fun batch => (batch.status,batch.orderCount,batch.totalPrice)
-- The batch received as a whole, and by the ids of its orders.
def ReceivesAlike (now batchId : Nat) (orderIds : List Nat) (requesterId : Option Nat) (depot : Depot) : Prop :=
  ∃ whole commits,receiveBranchTransferBatch now batchId requesterId depot = .ok whole ∧
    receiveBranchTransferBatchOrders now batchId orderIds requesterId depot = .ok commits ∧
    SameReceipt batchId whole (applyAll commits depot)

-- An order of the region the batch is recorded for, which no one deleted on the way.
def Local (depot : Depot) (batch : Batch) (id : Nat) : Prop :=
  ∃ row,depot.orders.row id = some row ∧ live row.order = true ∧ row.order.regionId = some batch.targetRegionId
structure ReceiptFits (batchId : Nat) (batch : Batch) (depot : Depot) : Prop where
  filled : depot.liveItems batchId ≠ []
  dispatched : ∀ item ∈ depot.liveItems batchId,item.sentAt ≠ none
  near : ∀ item ∈ depot.liveItems batchId,Local depot batch item.orderId
  counted : batch.orderCount = (depot.liveItems batchId).length
  priced : batch.totalPrice = snapshotTotal (depot.liveItems batchId)

-- Scanning every order of a batch selects its items as they are.
theorem all_selected {items : List BatchItem} {orderIds : List Nat} (all : ∀ id,id ∈ orderIds ↔ id ∈ items.map (·.orderId)) :
    (items.filter fun item => orderIds.eraseDups.contains item.orderId) = items := by
  rw [List.filter_eq_self]
  intro item member
  rw [List.contains_iff_mem,List.mem_eraseDups,all]
  exact List.mem_map.mpr ⟨item,member,rfl⟩
theorem scanned_whole {items : List BatchItem} {orderIds : List Nat} (all : ∀ id,id ∈ orderIds ↔ id ∈ items.map (·.orderId))
    (filled : items ≠ []) (dispatched : ∀ item ∈ items,item.sentAt ≠ none) : scannedItems items orderIds.eraseDups = .ok items := by
  have missing : (orderIds.eraseDups.filter fun id => !items.any fun item => item.orderId == id) = [] := by
    rw [List.filter_eq_nil_iff]
    intro id member
    rw [List.mem_eraseDups,all] at member
    obtain ⟨item,listed,same⟩ := List.mem_map.mp member
    simpa using ⟨item,listed,same⟩
  have unsent : (items.filter fun item => item.sentAt.isNone) = [] := by
    rw [List.filter_eq_nil_iff]
    intro item member
    simpa using dispatched item member
  unfold scannedItems
  dsimp only
  rw [all_selected all,missing,unsent]
  simp [filled]
theorem scanned_sent {items selectedItems : List BatchItem} {orderIds : List Nat} (all : ∀ id,id ∈ orderIds ↔ id ∈ items.map (·.orderId))
    (scanned : scannedItems items orderIds.eraseDups = .ok selectedItems) :
    items ≠ [] ∧ (∀ item ∈ items,item.sentAt ≠ none) ∧ selectedItems = items := by
  unfold scannedItems at scanned
  dsimp only at scanned
  rw [all_selected all] at scanned
  split at scanned
  · cases scanned
  rename_i filled
  split at scanned
  · cases scanned
  split at scanned
  · cases scanned
  rename_i unsent
  refine ⟨by simpa using filled,?_,by cases scanned; rfl⟩
  intro item member absent
  have listed : item ∈ items.filter fun item => item.sentAt.isNone := List.mem_filter.mpr ⟨member,by simp [absent]⟩
  have empty : (items.filter fun item => item.sentAt.isNone) = [] := by simpa using unsent
  rw [empty] at listed
  cases listed
theorem none_left (items : List BatchItem) : (items.filter fun item => !(items.map (·.orderId)).contains item.orderId).map (·.orderId) = [] := by
  rw [List.map_eq_nil_iff,List.filter_eq_nil_iff]
  intro item member
  have listed : (items.map (·.orderId)).contains item.orderId = true := List.contains_iff_mem.mpr (List.mem_map.mpr ⟨item,member,rfl⟩)
  rw [listed]
  simp

section Receipt
variable {depot : Depot} {batchId : Nat} {batch : Batch}

-- Both receipts take every order that is not deleted out of the batch.
theorem wholeReceipt_pointer (now requesterId id : Nat) : (receiveBatch now requesterId batchId batch depot).pointer id =
    (depot.orders.row id).bind fun row => if !row.order.isDeleted && ((depot.liveItems batchId).map (·.orderId)).contains id then none
      else row.order.currentBatchId := by
  unfold Depot.pointer
  dsimp only [receiveBatch]
  rw [updateWhere_row,updateWhere_row,updateWhere_row]
  cases depot.orders.row id with
  | none => rfl
  | some row =>
    simp only [Option.map_some,Option.bind_some]
    rw [setColumns_pointer (withStatus_pointer .new),setColumns_pointer (withStatus_pointer .received),setColumns]
    split
    · rfl
    · rfl
theorem allReceived_pointer (now requesterId id : Nat) :
    (receiveSelected now requesterId batchId batch (depot.liveItems batchId) depot).pointer id =
      (depot.orders.row id).bind fun row => if !row.order.isDeleted && ((depot.liveItems batchId).map (·.orderId)).contains id then none
        else row.order.currentBatchId := by
  unfold Depot.pointer
  dsimp only [receiveSelected]
  rw [none_left,updateWhere_row,updateWhere_row]
  cases depot.orders.row id with
  | none => rfl
  | some row =>
    simp only [Option.map_some,Option.bind_some]
    rw [List.contains_nil,setColumns_unchosen now _ (.inl rfl),setColumns]
    split
    · rfl
    · rfl

-- The two threads of one order part where the order is deleted, or goes to another region.
theorem receipt_threads (stocked : Stocked depot) (now requesterId id : Nat) :
    (receiveBatch now requesterId batchId batch depot).thread id =
        (receiveSelected now requesterId batchId batch (depot.liveItems batchId) depot).thread id ↔
      (id ∈ (depot.liveItems batchId).map (·.orderId) → Local depot batch id) := by
  have distinct := liveItems_unique stocked.unique batchId
  have chosen := ordersIn_row stocked ((depot.liveItems batchId).map (·.orderId)) id
  have unleft : Table.row (if batch.direction = .forward then depot.ordersIn [] else []) id = none := by
    split
    · rw [ordersIn_row stocked]
      exact Option.filter_eq_none_iff.mpr fun _ _ => by simp
    · rfl
  rw [receiveBatch_thread stocked now requesterId batchId batch id _ chosen,
    receiveSelected_thread stocked distinct now requesterId batchId batch id _ _ (none_left (depot.liveItems batchId)).symm chosen unleft]
  cases here : depot.orders.row id with
  | none =>
    have outside : id ∉ (depot.liveItems batchId).map (·.orderId) := by
      intro member
      obtain ⟨item,listed,rfl⟩ := List.mem_map.mp member
      exact (stocked.placed item (mem_liveItems.mp listed).1).2 here
    simp [outside]
  | some row =>
    rw [Option.map_some,Option.map_some,List.contains_nil,setColumns_unchosen now (detached _) (.inl rfl)]
    by_cases member : id ∈ (depot.liveItems batchId).map (·.orderId)
    · have listed : ((depot.liveItems batchId).map (·.orderId)).contains id = true := List.contains_iff_mem.mpr member
      rw [listed,if_pos member]
      rcases alive_or_gone stocked here with alive | gone
      · rw [Option.filter_some_pos (by rw [alive]; rfl)]
        have kept := live_kept alive
        by_cases near : row.order.regionId = some batch.targetRegionId
        · have same : (row.order.regionId == some batch.targetRegionId) = true := by simpa using near
          refine iff_of_true ?_ fun _ => ⟨row,here,alive,near⟩
          simp only [Option.filter_some,same,Bool.not_true,if_true,Bool.false_eq_true,if_false]
          simp [setColumns,kept,receivedOrder,withStatus,atBranch,standing,holderOf]
        · have apart : (row.order.regionId == some batch.targetRegionId) = false := by simpa using near
          refine iff_of_false ?_ fun nearby => ?_
          · -- the whole receipt sets NEW, the other one RECEIVED
            intro same
            have status := congrArg (fun thread => thread.order.map (·.status)) same
            simp [apart,setColumns,kept,receivedOrder,withStatus,atBranch,standing,holderOf] at status
          · obtain ⟨found,present,-,region⟩ := nearby member
            rw [here] at present
            cases present
            exact near region
      · have dead : live row.order = false := by simp [live,gone]
        rw [Option.filter_some_neg (by rw [dead]; simp)]
        refine iff_of_false ?_ fun nearby => ?_
        · -- only the receipt by ids writes that a deleted order was handed over
          intro same
          have custody := congrArg Thread.custody same
          simp at custody
        · obtain ⟨found,present,alive,-⟩ := nearby member
          rw [here] at present
          cases present
          rw [dead] at alive
          cases alive
    · have unlisted : ((depot.liveItems batchId).map (·.orderId)).contains id = false := by
        rw [Bool.eq_false_iff]
        exact fun listed => member (List.contains_iff_mem.mp listed)
      rw [unlisted,if_neg member,Option.filter_some_neg (by simp)]
      simp [member,setColumns_unchosen now _ (.inl rfl)]

-- What the two requests come to, on a batch that is sent.
theorem wholeReceipt_done (stocked : Stocked depot) (stored : depot.batches.row batchId = some batch) (sent : batch.status = .sent)
    (now : Nat) (requesterId : Option Nat) :
    receiveBranchTransferBatch now batchId requesterId depot = .ok (receiveBatch now (requesterId.getD 0) batchId batch depot) := by
  have found := findBatch_stored stocked stored
  have allowed : checkReceive batch = .ok () := by simp [checkReceive,sent]
  unfold receiveBranchTransferBatch
  rw [found]
  change (do checkReceive batch; .ok (receiveBatch now (requesterId.getD 0) batchId batch depot)) = _
  rw [allowed]
  rfl
theorem allReceived_run (now requesterId batchId : Nat) (batch : Batch) (depot : Depot) : applyAll
    [receiveSelected now requesterId batchId batch (depot.liveItems batchId),fun current => orKeep current (rebatch now batchId batch
      (((depot.liveItems batchId).filter fun item => !((depot.liveItems batchId).map (·.orderId)).contains item.orderId).map (·.orderId)) current)]
      depot = receiveSelected now requesterId batchId batch (depot.liveItems batchId) depot := by
  rw [none_left]
  rfl
theorem allReceived_done (stocked : Stocked depot) (stored : depot.batches.row batchId = some batch) (sent : batch.status = .sent)
    {orderIds : List Nat} (all : ∀ id,id ∈ orderIds ↔ id ∈ (depot.liveItems batchId).map (·.orderId)) (now : Nat)
    (requesterId : Option Nat) :
    (∃ commits,receiveBranchTransferBatchOrders now batchId orderIds requesterId depot = .ok commits ∧ applyAll commits depot = next) ↔
      depot.liveItems batchId ≠ [] ∧ (∀ item ∈ depot.liveItems batchId,item.sentAt ≠ none) ∧
        next = receiveSelected now (requesterId.getD 0) batchId batch (depot.liveItems batchId) depot := by
  constructor
  · rintro ⟨commits,done,reached⟩
    obtain ⟨_,-,rest⟩ := error_bind_parts done
    obtain ⟨found,located,rest⟩ := error_bind_parts rest
    have same := (findBatch_parts located).1
    rw [stored] at same
    cases same
    obtain ⟨_,-,rest⟩ := error_bind_parts rest
    obtain ⟨selectedItems,scanned,rest⟩ := error_bind_parts rest
    obtain ⟨filled,dispatched,rfl⟩ := scanned_sent all scanned
    cases rest
    exact ⟨filled,dispatched,reached.symm.trans (allReceived_run now _ batchId batch depot)⟩
  · rintro ⟨filled,dispatched,rfl⟩
    have scanned := scanned_whole all filled dispatched
    have listed : checkScanned orderIds = .ok () := by
      unfold checkScanned
      rw [if_neg]
      intro empty
      obtain ⟨item,rest,same⟩ := List.exists_cons_of_ne_nil filled
      have member : item.orderId ∈ orderIds := (all item.orderId).mpr (by simp [same])
      rw [List.isEmpty_iff.mp empty] at member
      cases member
    have allowed : checkReceiveOrders batch = .ok () := by simp [checkReceiveOrders,sent]
    refine ⟨_,?_,allReceived_run now _ batchId batch depot⟩
    unfold receiveBranchTransferBatchOrders receiveBatchOrders
    rw [listed,findBatch_stored stocked stored,scanned]
    change (do checkReceiveOrders batch; .ok _) = _
    rw [allowed]
    rfl

theorem receipt_batches (now requesterId : Nat) :
    ((receiveBatch now requesterId batchId batch depot).batches.row batchId).map (fun batch => (batch.status,batch.orderCount,batch.totalPrice)) =
        ((receiveSelected now requesterId batchId batch (depot.liveItems batchId) depot).batches.row batchId).map
          (fun batch => (batch.status,batch.orderCount,batch.totalPrice)) ↔
      batch.orderCount = (depot.liveItems batchId).length ∧ batch.totalPrice = snapshotTotal (depot.liveItems batchId) := by
  dsimp only [receiveBatch,receiveSelected]
  rw [row_put,row_put,if_pos rfl,if_pos rfl]
  simp [receivedBatch]

theorem whole_receipt {orderIds : List Nat} (now : Nat) (requesterId : Option Nat) (stocked : Stocked depot)
    (stored : depot.batches.row batchId = some batch) (sent : batch.status = .sent)
    (all : ∀ id,id ∈ orderIds ↔ id ∈ (depot.liveItems batchId).map (·.orderId)) :
    ReceivesAlike now batchId orderIds requesterId depot ↔ ReceiptFits batchId batch depot := by
  have threads : ∀ id,(receiveBatch now (requesterId.getD 0) batchId batch depot).thread id =
      (receiveSelected now (requesterId.getD 0) batchId batch (depot.liveItems batchId) depot).thread id ↔
        (id ∈ (depot.liveItems batchId).map (·.orderId) → Local depot batch id) := receipt_threads stocked now (requesterId.getD 0)
  constructor
  · rintro ⟨whole,commits,one,each,same⟩
    rw [wholeReceipt_done stocked stored sent] at one
    cases one
    obtain ⟨filled,dispatched,reached⟩ := (allReceived_done stocked stored sent all now requesterId).mp ⟨commits,each,rfl⟩
    rw [reached] at same
    obtain ⟨counted,priced⟩ := (receipt_batches now _).mp same.batch
    exact ⟨filled,dispatched,fun item member => (threads item.orderId).mp (same.threads item.orderId) (List.mem_map.mpr ⟨item,member,rfl⟩),
      counted,priced⟩
  · intro fits
    obtain ⟨commits,each,reached⟩ := (allReceived_done stocked stored sent all now requesterId).mpr ⟨fits.filled,fits.dispatched,rfl⟩
    refine ⟨_,commits,wholeReceipt_done stocked stored sent now requesterId,each,?_⟩
    rw [reached]
    refine ⟨fun id => (threads id).mpr fun member => ?_,fun id => ?_,(receipt_batches now _).mpr ⟨fits.counted,fits.priced⟩⟩
    · obtain ⟨item,listed,rfl⟩ := List.mem_map.mp member
      exact fits.near item listed
    · rw [wholeReceipt_pointer,allReceived_pointer]

end Receipt

-- Both parcels leave for one region, and arrive.
def departed : Depot := (Op.send 11 1 "ff" (truck [1,2])).perform packed
theorem departed_stocked : Stocked departed := by
  have reached : departed = performAll emptyDepot [parcel 100,parcel 250,.createTransfer 10 transfer,.send 11 1 "ff" (truck [1,2])] := by
    rw [departed,←twoParcels_packed]
    rfl
  rw [reached]
  exact reached_stocked _
theorem whole_receipt_parcels : ReceivesAlike 12 1 [2,1] (some 9) departed := by
  refine (whole_receipt 12 (some 9) departed_stocked (by decide : departed.batches.row 1 = some (sentBatch 11 (truck [1,2]) packedBatch))
    rfl ?_).mpr ⟨by decide,by decide,?_,by decide,by decide⟩
  · intro id
    have items : (departed.liveItems 1).map (·.orderId) = [1,2] := by decide
    simp [items,or_comm]
  · have near : ∀ item ∈ departed.liveItems 1,(departed.orders.row item.orderId).any (fun row =>
        live row.order && row.order.regionId == some (sentBatch 11 (truck [1,2]) packedBatch).targetRegionId) = true := by decide
    intro item member
    obtain ⟨row,here,both⟩ := (Option.any_eq_true _ _).mp (near item member)
    obtain ⟨alive,region⟩ := Bool.and_eq_true_iff.mp both
    exact ⟨row,here,alive,by simpa using region⟩

-- A return batch takes the region of its first order, here for two orders of two regions, one of them cancelled.
def parcelTo (regionId : Nat) : Op :=
  .create hub none {marketId:=7,customerId:=8,branchId:=some 2,regionId:=some regionId,totalPrice:=some 100} none "token"
def twoRegions : Depot := performAll emptyDepot [parcelTo 3,parcelTo 5,.markByProvider 6 2 .cancel]
def backHome : ReturnInput := ⟨4,[1,2],some "return-1"⟩
def returned : Depot :=
  {twoRegions with
    batches:=[(1,{newBatch 10 4 2 .back 3 "return-1" with orderCount:=2,totalPrice:=200})],nextBatchId:=2,
    items:=[⟨1,1,100,7,none,false⟩,⟨1,2,100,7,none,false⟩],
    orders:=updateWhere 10 (unbound [1,2]) (bindTo 1) twoRegions.orders}
theorem twoRegions_returned : (Op.createReturn 10 backHome).perform twoRegions = returned := by
  have key : normalizeTransferRequestKey backHome.requestKey = .ok "return-1" := by decide
  have placed : placeReturn 10 backHome "return-1" 2 twoRegions.orders twoRegions =
      .ok (1,twoRegions.insertBatch (newBatch 10 4 2 .back 3 "return-1")) := by
    have region : (twoRegions.orders.head?.bind fun entry => entry.2.order.regionId) = some 3 := rfl
    unfold placeReturn
    rw [region]
    dsimp only
    rw [show twoRegions.pendingBatches backHome.sourceBranchId 2 .back = [] from rfl,List.mergeSort_nil]
    rfl
  have created : createBranchReturnBatches 10 backHome twoRegions = .ok returned := by
    unfold createBranchReturnBatches
    rw [key]
    change assignGroups 10 (placeReturn 10 backHome "return-1") [(2,twoRegions.orders)] twoRegions = _
    unfold assignGroups
    rw [placed]
    rfl
  rw [perform_one rfl,created]
  rfl

def returning : Depot := (Op.send 11 1 "ff" (truck [1,2])).perform returned
theorem returning_stocked : Stocked returning := by
  have reached : returning = performAll emptyDepot
      [parcelTo 3,parcelTo 5,.markByProvider 6 2 .cancel,.createReturn 10 backHome,.send 11 1 "ff" (truck [1,2])] := by
    rw [returning,←twoRegions_returned]
    rfl
  rw [reached]
  exact reached_stocked _
theorem receipts_differ : Stocked returning ∧ (returning.batches.row 1).map (·.status) = some .sent ∧
    (returning.liveItems 1).map (·.orderId) = [1,2] ∧ ¬ReceivesAlike 12 1 [1,2] (some 9) returning := by
  refine ⟨returning_stocked,by decide,by decide,?_⟩
  rintro ⟨whole,commits,one,each,same⟩
  have requeued : (receiveBranchTransferBatch 12 1 (some 9) returning).toOption.map (fun depot => (depot.thread 2).order.map (·.status)) =
      some (some .new) := by decide
  have received : (receiveBranchTransferBatchOrders 12 1 [1,2] (some 9) returning).toOption.map
      (fun commits => ((applyAll commits returning).thread 2).order.map (·.status)) = some (some .received) := by decide
  rw [one] at requeued
  rw [each] at received
  rw [Except.toOption,Option.map_some,Option.some.injEq,same.threads 2] at requeued
  rw [Except.toOption,Option.map_some,Option.some.injEq,requeued] at received
  cases received

end Elchi.Batches
