import Elchi.SendSplits
namespace Elchi.Batches
open Orders RowLock

-- A table seen through a view of its rows: rewriting a row that looks the same changes nothing, a new row comes last.
section Views
variable {V W : Type} (view : Nat × V → W)

theorem put_view {table : Table V} {key : Nat} {old value : V} (stored : table.row key = some old) (same : view (key,value) = view (key,old)) :
    (table.put key value).map view = table.map view := by
  induction table with
  | nil => cases stored
  | cons entry rest ih =>
    obtain ⟨k,v⟩ := entry
    rw [row_cons] at stored
    by_cases here : k = key
    · subst here
      rw [if_pos rfl] at stored
      cases stored
      simp only [Table.put,↓reduceIte,List.map_cons,same]
    · rw [if_neg here] at stored
      simp only [Table.put,if_neg here,List.map_cons,ih stored]
theorem put_fresh {table : Table V} {key : Nat} (value : V) (fresh : table.row key = none) : table.put key value = table ++ [(key,value)] := by
  induction table with
  | nil => rfl
  | cons entry rest ih =>
    obtain ⟨k,v⟩ := entry
    rw [row_cons] at fresh
    by_cases here : k = key
    · rw [if_pos here] at fresh
      cases fresh
    · rw [if_neg here] at fresh
      simp only [Table.put,if_neg here,ih fresh,List.cons_append]
end Views

-- A batch is named by its source branch and request key; the names are never rewritten and
-- never given twice.
def batchName (entry : Nat × Batch) : Nat × Nat × String := (entry.1,entry.2.sourceBranchId,entry.2.requestKey)
def Depot.names (depot : Depot) : List (Nat × Nat × String) := depot.batches.map batchName
def NamedOnce (depot : Depot) : Prop := (depot.names.map (·.2)).Nodup
structure Renamed (before after : Depot) : Prop where
  later : before.names <+: after.names
  once : NamedOnce after
  below : ∀ id,after.batches.row id ≠ none → id < after.nextBatchId

section Steps
variable {before depot next : Depot}

theorem Renamed.same (renamed : Renamed before depot) (names : next.names = depot.names)
    (below : ∀ id,next.batches.row id ≠ none → id < next.nextBatchId) : Renamed before next :=
  ⟨by rw [names]; exact renamed.later,by rw [NamedOnce,names]; exact renamed.once,below⟩
theorem Renamed.still (renamed : Renamed before depot) (batches : next.batches = depot.batches) (number : next.nextBatchId = depot.nextBatchId) :
    Renamed before next :=
  renamed.same (by rw [Depot.names,batches]; rfl) (by rw [batches,number]; exact renamed.below)
theorem Renamed.put (renamed : Renamed before depot) {batchId : Nat} {old batch : Batch} (stored : depot.batches.row batchId = some old)
    (batches : next.batches = depot.batches.put batchId batch) (name : batchName (batchId,batch) = batchName (batchId,old))
    (number : next.nextBatchId = depot.nextBatchId) : Renamed before next := by
  refine renamed.same (by rw [Depot.names,batches]; exact put_view batchName stored name) fun id present => ?_
  rw [batches,row_put] at present
  rw [number]
  split at present
  · rename_i same
    exact same ▸ renamed.below batchId (by rw [stored]; exact (nomatch ·))
  · exact renamed.below id present
theorem keyTaken_exact (depot : Depot) (source : Nat) (key : String) :
    depot.keyTaken source key = true ↔ (source,key) ∈ depot.names.map (·.2) := by
  simp [Depot.keyTaken,Depot.names,batchName]
theorem insertBatch_names (depot : Depot) (below : ∀ id,depot.batches.row id ≠ none → id < depot.nextBatchId) (batch : Batch) :
    (depot.insertBatch batch).names = depot.names ++ [(depot.nextBatchId,batch.sourceBranchId,batch.requestKey)] := by
  have fresh : depot.batches.row depot.nextBatchId = none := by
    by_contra present
    exact Nat.lt_irrefl _ (below _ present)
  rw [Depot.names,Depot.insertBatch,put_fresh batch fresh,List.map_append]
  rfl
theorem Renamed.insert (renamed : Renamed before depot) {batch : Batch} (free : depot.keyTaken batch.sourceBranchId batch.requestKey = false) :
    Renamed before (depot.insertBatch batch) := by
  have names := insertBatch_names depot renamed.below batch
  refine ⟨names ▸ renamed.later.trans (List.prefix_append _ _),?_,fun id present => ?_⟩
  · have apart : (batch.sourceBranchId,batch.requestKey) ∉ depot.names.map (·.2) := fun taken => by
      rw [(keyTaken_exact depot _ _).mpr taken] at free
      cases free
    rw [NamedOnce,names,List.map_append]
    refine List.nodup_append.mpr ⟨renamed.once,List.nodup_singleton _,fun x inside y new same => ?_⟩
    have same : x = (batch.sourceBranchId,batch.requestKey) := same.trans (List.mem_singleton.mp new)
    exact apart (same ▸ inside)
  · rw [insertBatch_row] at present
    split at present
    · rename_i same
      exact same ▸ Nat.lt_succ_self _
    · exact Nat.lt_succ_of_lt (renamed.below id present)
theorem Renamed.saved (renamed : Renamed before depot) {batch : Batch} {placed : Nat × Depot} (saved : saveNewBatch batch depot = .ok placed) :
    Renamed before placed.2 := by
  obtain ⟨rfl,free⟩ := saveNewBatch_parts saved
  exact renamed.insert free
theorem Renamed.assigned (renamed : Renamed before depot) (assigned : assignOrders now batchId orders depot = .ok next) :
    Renamed before next := by
  obtain ⟨-,-,rfl⟩ := assignOrders_parts assigned
  have names := update_view (fun batch : Batch => (batch.sourceBranchId,batch.requestKey)) batchId (countIn orders) (fun _ => rfl) depot.batches
  refine renamed.same names fun id present => renamed.below id fun absent => present ?_
  rw [update_row]
  split
  · rw [absent]
    rfl
  · exact absent
end Steps

-- The creations, by their groups.
theorem placeInRegion_saved (placed : placeInRegion now input key pending region orders depot = .ok result) :
    result.2 = depot ∨ ∃ batch,saveNewBatch batch depot = .ok result := by
  unfold placeInRegion at placed
  split at placed
  · cases placed
    exact .inl rfl
  · exact .inr ⟨_,placed⟩
theorem placeReturn_saved (placed : placeReturn now input key destination orders depot = .ok result) :
    result.2 = depot ∨ ∃ batch,saveNewBatch batch depot = .ok result := by
  unfold placeReturn at placed
  split at placed
  · cases placed
  dsimp only at placed
  split at placed
  · cases placed
    exact .inl rfl
  · exact .inr ⟨_,placed⟩
theorem assignGroups_renamed {place : Nat → Table OrderRow → Depot → Except RpcError (Nat × Depot)} {groups : List (Nat × Table OrderRow)}
    (places : ∀ group orders current placed,place group orders current = .ok placed →
      placed.2 = current ∨ ∃ batch,saveNewBatch batch current = .ok placed)
    (renamed : Renamed before depot) (assigned : assignGroups now place groups depot = .ok next) : Renamed before next := by
  refine assignGroups_keeps (P:=Renamed before) groups ?_ renamed assigned
  intro group orders current placed next _ held found assigns
  rcases places group orders current placed found with same | ⟨batch,saved⟩
  · exact Renamed.assigned (same ▸ held) assigns
  · exact (held.saved saved).assigned assigns
theorem createTransfer_renamed (renamed : Renamed before depot) (created : createBranchTransferBatches now input depot = .ok next) :
    Renamed before next := by
  rcases createTransfer_parts created with rfl | ⟨key,pending,orders,-,-,-,assigned⟩
  · exact renamed
  · exact assignGroups_renamed (fun _ _ _ _ => placeInRegion_saved) renamed assigned
theorem createReturn_renamed (renamed : Renamed before depot) (created : createBranchReturnBatches now input depot = .ok next) :
    Renamed before next := by
  rcases createReturn_parts created with rfl | ⟨key,orders,-,-,assigned⟩
  · exact renamed
  · exact assignGroups_renamed (fun _ _ _ _ => placeReturn_saved) renamed assigned
theorem rebatch_renamed (renamed : Renamed before depot) (done : rebatch now batchId batch remaining depot = .ok next) :
    Renamed before next := by
  unfold rebatch at done
  dsimp only at done
  split at done
  · cases done
    exact renamed
  split at done
  · exact createReturn_renamed renamed done
  · exact createTransfer_renamed renamed done

theorem send_renamed (renamed : Renamed before depot) (sent : sendBranchTransferBatch now batchId random input depot = .ok commits)
    (stop : Nat) : Renamed before (applyAll (commits.take stop) depot) := by
  obtain ⟨batch,stored,-,-,sent⟩ := sendBranch_parts sent
  obtain ⟨toMark,-,ways⟩ := sendBatch_parts sent
  have tracks {current : Depot} (held : Renamed before current) (events : Journal TrackingEvent) (n : Nat) :
      Renamed before (applyAll ((trackEach events).take n) current) := by
    rw [take_trackEach,applyAll_trackEach]
    exact held.still rfl rfl
  let ids := toMark.map (·.orderId)
  have marked : Renamed before (markSent now batchId ids depot) := renamed.still rfl rfl
  rcases ways with ⟨-,rfl⟩ | ⟨-,-,rfl⟩ | ⟨-,free,rfl⟩
  · have saved : Renamed before ((markSent now batchId ids depot).saveBatch batchId (sentBatch now input batch)) :=
      marked.put stored rfl rfl rfl
    have left : Renamed before (sendOrders now batchId batchId batch ids
        ((markSent now batchId ids depot).saveBatch batchId (sentBatch now input batch))) := saved.still rfl rfl
    match stop with
    | 0 => exact renamed
    | 1 => exact marked
    | 2 => exact saved
    | n+3 => exact tracks left _ n
  · match stop with
    | 0 => exact renamed
    | n+1 =>
      simp only [List.take_succ_cons,List.take_nil]
      exact marked
  · have inserted : Renamed before ((markSent now batchId ids depot).insertBatch (splitBatch now batchId random input toMark batch)) :=
      marked.insert free
    have moved : Renamed before (moveTo batchId depot.nextBatchId ids
        ((markSent now batchId ids depot).insertBatch (splitBatch now batchId random input toMark batch))) := inserted.still rfl rfl
    have there : ((markSent now batchId ids depot).insertBatch (splitBatch now batchId random input toMark batch)).batches.row batchId =
        some batch := by
      rw [insertBatch_row,if_neg]
      · exact stored
      · exact Nat.ne_of_gt (renamed.below batchId (by rw [stored]; exact (nomatch ·)))
    have saved (rest : List BatchItem) : Renamed before (Depot.saveBatch (moveTo batchId depot.nextBatchId ids
        ((markSent now batchId ids depot).insertBatch (splitBatch now batchId random input toMark batch))) batchId
          (remainingBatch rest batch)) := moved.put there rfl rfl rfl
    have left (rest : List BatchItem) : Renamed before (sendOrders now batchId depot.nextBatchId batch ids
        (Depot.saveBatch (moveTo batchId depot.nextBatchId ids ((markSent now batchId ids depot).insertBatch
          (splitBatch now batchId random input toMark batch))) batchId (remainingBatch rest batch))) := (saved rest).still rfl rfl
    match stop with
    | 0 => exact renamed
    | 1 => exact marked
    | 2 => exact inserted
    | 3 => exact moved
    | 4 => exact saved _
    | n+5 => exact tracks (left _) _ n

theorem handOver_renamed (renamed : Renamed before depot) (orders : Table OrderRow) : Renamed before (handOver now requesterId orders depot) := by
  induction orders generalizing depot with
  | nil => exact renamed
  | cons entry rest ih => exact ih (renamed.still rfl rfl)
theorem until_renamed (renamed : Renamed before depot) (op : Op) (stop : Nat) : Renamed before (op.performUntil stop depot) := by
  cases op with
  | create _ _ _ _ _ =>
    refine until_keeps rfl stop renamed fun next done => ?_
    obtain ⟨_,-,rfl⟩ := create_parts done
    exact renamed.still rfl rfl
  | updateFull _ _ _ _ =>
    refine front_keeps stop renamed fun commits done => ?_
    obtain ⟨_,_,-,-,-,_,same | same⟩ := updateFull_until done stop
    · rw [same]
      exact renamed.still rfl rfl
    · rw [same]
      exact renamed.still rfl rfl
  | sellOrder _ _ _ _ _ =>
    refine until_keeps rfl stop renamed fun next done => ?_
    obtain ⟨_,_,_,-,-,-,-,rfl⟩ := sellOrder_parts done
    exact renamed.still rfl rfl
  | partlySellOrder _ _ _ _ _ _ =>
    refine until_keeps rfl stop renamed fun next done => ?_
    obtain ⟨_,_,_,-,-,-,-,rfl⟩ := partlySellOrder_parts done
    exact renamed.still rfl rfl
  | cancelOrder _ _ _ _ _ =>
    refine until_keeps rfl stop renamed fun next done => ?_
    obtain ⟨_,_,_,-,-,-,-,rfl⟩ := cancelOrder_parts done
    exact renamed.still rfl rfl
  | rollback _ _ _ _ _ =>
    refine until_keeps rfl stop renamed fun next done => ?_
    obtain ⟨_,_,_,_,_,-,-,-,-,rfl⟩ := rollback_parts done
    exact renamed.still rfl rfl
  | markByProvider _ _ _ =>
    refine until_keeps rfl stop renamed fun next done => ?_
    obtain ⟨_,-,-,rfl | ⟨-,rfl⟩⟩ := markByProvider_parts done
    · exact renamed
    · exact renamed.still rfl rfl
  | markReturned _ _ =>
    refine until_keeps rfl stop renamed fun next done => ?_
    obtain ⟨_,-,-,-,rfl⟩ := markReturned_parts done
    exact renamed.still rfl rfl
  | handover _ _ _ _ _ =>
    refine until_keeps rfl stop renamed fun next done => ?_
    obtain rfl := completeHandover_parts done
    exact handOver_renamed renamed _
  | createTransfer _ _ => exact until_keeps rfl stop renamed fun next done => createTransfer_renamed renamed done
  | createReturn _ _ => exact until_keeps rfl stop renamed fun next done => createReturn_renamed renamed done
  | bulkAssign _ _ _ _ =>
    refine until_keeps rfl stop renamed fun next done => ?_
    obtain rfl | ⟨_,-,-,-,-,rfl⟩ := bulkAssign_parts done
    · exact renamed
    · exact renamed.still rfl rfl
  | bulkRemove _ _ _ =>
    refine until_keeps rfl stop renamed fun next done => ?_
    obtain rfl | ⟨_,-,-,rfl⟩ := bulkRemove_parts done
    · exact renamed
    · exact renamed.still rfl rfl
  | send now batchId random input => exact front_keeps stop renamed fun commits done => send_renamed renamed done stop
  | receive now batchId requesterId =>
    refine until_keeps rfl stop renamed fun next done => ?_
    obtain ⟨batch,stored,-,rfl⟩ := receive_parts done
    exact renamed.put stored rfl rfl rfl
  | receiveOrders now batchId orderIds requesterId =>
    refine front_keeps stop renamed fun commits done => ?_
    obtain ⟨batch,selectedItems,remaining,stored,-,-,rfl⟩ := receiveOrders_parts done
    have received : Renamed before (receiveSelected now (requesterId.getD 0) batchId batch selectedItems depot) :=
      renamed.put stored rfl rfl rfl
    match stop with
    | 0 => exact renamed
    | 1 => exact received
    | n+2 =>
      simp only [List.take_succ_cons,List.take_nil]
      exact orKeep_keeps received fun next done => rebatch_renamed received done
  | cancelBatch now batchId reason =>
    refine until_keeps rfl stop renamed fun next done => ?_
    obtain ⟨batch,stored,-,-,rfl⟩ := cancel_parts done
    exact renamed.put stored rfl rfl rfl
  | cancelBatches now batchIds remove =>
    refine until_keeps rfl stop renamed fun next done => ?_
    obtain ⟨-,rfl⟩ := cancelBatches_parts done
    have names {entry : Nat × Batch} : batchName (entry.1,if batchIds.contains entry.1 && !entry.2.isDeleted then
        {entry.2 with status:=.cancelled,cancelledAt:=some now} else entry.2) = batchName entry := by
      split
      · rfl
      · rfl
    refine renamed.same ?_ fun id present => renamed.below id fun absent => present ?_
    · rw [Depot.names,List.map_map]
      exact List.map_congr_left fun entry _ => names
    · refine (map_row depot.batches (fun id batch => if batchIds.contains id && !batch.isDeleted then
        {batch with status:=.cancelled,cancelledAt:=some now} else batch) id).trans ?_
      rw [absent]
      rfl

-- Whatever happens later, a batch keeps its name; every operation may stop after any of its commits.
def haltAll : Depot → List (Op × Nat) → Depot := Runs.runFrom fun depot step => step.1.performUntil step.2 depot
theorem halt_renamed (steps : List (Op × Nat)) : ∀ {depot : Depot},Renamed before depot → Renamed before (haltAll depot steps) := by
  induction steps with
  | nil => exact fun renamed => renamed
  | cons step rest ih => exact fun renamed => ih (until_renamed renamed step.1 step.2)
theorem halt_stocked (steps : List (Op × Nat)) : ∀ {depot : Depot},Stocked depot → Stocked (haltAll depot steps) := by
  induction steps with
  | nil => exact fun stocked => stocked
  | cons step rest ih => exact fun stocked => ih (until_stocked stocked step.1 step.2)
-- The depots that operations reach: keyed, and every batch named once.
structure Filed (depot : Depot) : Prop where
  stocked : Stocked depot
  once : NamedOnce depot
theorem Filed.renamed (filed : Filed depot) : Renamed depot depot := ⟨List.prefix_rfl,filed.once,filed.stocked.below⟩
theorem reached_filed (steps : List (Op × Nat)) : Filed (haltAll emptyDepot steps) := by
  have start : Filed emptyDepot := ⟨stocked_empty,List.nodup_nil⟩
  exact ⟨halt_stocked steps start.stocked,(halt_renamed steps start.renamed).once⟩

end Elchi.Batches
