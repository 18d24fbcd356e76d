import Elchi.BatchBinding
namespace Elchi.Batches
open Orders RowLock

section Closing
variable {depot : Depot} {batch : Batch} {batchId : Nat}

theorem closed_row (status : isOpen batch.status = false) (kept : batch.isDeleted = false) (stored : depot.batches.row batchId ≠ none) :
    ∀ id,id = batchId → depot.batches.row id ≠ none ∧
      ∀ found,Table.row (depot.batches.put batchId batch) id = some found → isOpen found.status = false ∧ found.isDeleted = false := by
  rintro id rfl
  refine ⟨stored,?_⟩
  intro found here
  rw [row_put,if_pos rfl] at here
  cases here
  exact ⟨status,kept⟩
theorem other_row (batches : Table Batch) (batch : Batch) (batchId : Nat) :
    ∀ id,¬id = batchId → Table.row (batches.put batchId batch) id = batches.row id := by
  intro id different
  rw [row_put,if_neg (Ne.symm different)]

theorem receiveBatch_bound (bound : Bound depot) (stored : depot.batches.row batchId = some batch) (isSent : batch.status = .sent) :
    Bound (receiveBatch now requesterId batchId batch depot) := by
  have kept := bound.kept batchId batch stored
  have listed := bound.listed batchId ⟨batch,stored,by rw [isSent]; rfl⟩
  apply bound_close (fun id => id = batchId) bound
  · dsimp only [receiveBatch]
    exact updateWhere_keyed _ _ _ (updateWhere_keyed _ _ _ (updateWhere_keyed _ _ _ bound.keyed))
  · exact put_keyed bound.batchKeyed _ _
  · rfl
  · exact other_row _ _ _
  · exact closed_row rfl kept (by simp [stored])
  · rfl
  · exact fun _ _ => rfl
  · intro orderId
    simp only [receiveBatch,Depot.pointer,updateWhere_row,Option.map_map]
    apply pointer_released bound
    · intro row idle
      simp only [Function.comp_apply]
      rw [setColumns_pointer (withStatus_pointer .new),setColumns_pointer (withStatus_pointer .received)]
      exact setColumns_unbound (atBranch_pointer now requesterId batch.destinationBranchId) idle
    · intro row held present pointed points
      simp only [Function.comp_apply]
      rw [setColumns_pointer (withStatus_pointer .new),setColumns_pointer (withStatus_pointer .received),
        setColumns_released (atBranch_pointer now requesterId batch.destinationBranchId) present,points]
      have here : ((depot.liveItems batchId).map (·.orderId)).contains orderId = true ↔ held = batchId := by
        rw [List.contains_iff_mem,listed orderId,pointed,Option.some.injEq]
      simp only [here]
  · intro orderId
    simp only [receiveBatch,Depot.alive,updateWhere_row,Option.map_map]
    apply alive_kept
    intro row
    simp only [Function.comp_apply]
    rw [setColumns_live (withStatus_live .new),setColumns_live (withStatus_live .received),
      setColumns_live (atBranch_live now requesterId batch.destinationBranchId)]

theorem deleteItems_keys (batchId : Nat) (ids : List Nat) (items : List BatchItem) :
    (deleteItems batchId ids items).map itemKey = items.map itemKey := by
  rw [deleteItems,List.map_map]
  apply List.map_congr_left
  intro item _
  simp only [Function.comp_apply]
  split
  · rfl
  · rfl
theorem deleteItems_other {id : Nat} (ids : List Nat) (items : List BatchItem) (different : ¬id = batchId) :
    (deleteItems batchId ids items).filter (liveIn id) = items.filter (liveIn id) := by
  induction items with
  | nil => rfl
  | cons item rest ih =>
    rw [deleteItems,List.map_cons,List.filter_cons,List.filter_cons,←deleteItems,ih]
    by_cases taken : item.batchId = batchId ∧ item.orderId ∈ ids ∧ item.isDeleted = false
    · have elsewhere : batchId ≠ id := Ne.symm different
      simp [liveIn,taken,elsewhere]
    · rw [if_neg taken]

theorem receiveSelected_bound {selectedItems : List BatchItem} (bound : Bound depot) (stored : depot.batches.row batchId = some batch)
    (isSent : batch.status = .sent) (scanned : ∀ item ∈ selectedItems,item ∈ depot.liveItems batchId) :
    Bound (receiveSelected now requesterId batchId batch selectedItems depot) := by
  have kept := bound.kept batchId batch stored
  have listed := bound.listed batchId ⟨batch,stored,by rw [isSent]; rfl⟩
  let selected := selectedItems.map (·.orderId)
  let remaining := ((depot.liveItems batchId).filter fun item => !selected.contains item.orderId).map (·.orderId)
  -- every live item is scanned or left over
  have parted : ∀ orderId,orderId ∈ selected ∨ orderId ∈ remaining ↔ depot.pointer orderId = some batchId := by
    intro orderId
    rw [←listed orderId]
    constructor
    · rintro (taken | left)
      · obtain ⟨item,member,same⟩ := List.mem_map.mp taken
        exact List.mem_map.mpr ⟨item,scanned item member,same⟩
      · obtain ⟨item,member,same⟩ := List.mem_map.mp left
        exact List.mem_map.mpr ⟨item,(List.mem_filter.mp member).1,same⟩
    · intro member
      obtain ⟨item,present,same⟩ := List.mem_map.mp member
      by_cases taken : orderId ∈ selected
      · exact .inl taken
      · exact .inr (List.mem_map.mpr ⟨item,List.mem_filter.mpr ⟨present,by simpa [same] using taken⟩,same⟩)
  apply bound_close (fun id => id = batchId) bound
  · dsimp only [receiveSelected]
    exact updateWhere_keyed _ _ _ (updateWhere_keyed _ _ _ bound.keyed)
  · exact put_keyed bound.batchKeyed _ _
  · rfl
  · exact other_row _ _ _
  · exact closed_row rfl kept (by simp [stored])
  · simp only [receiveSelected,deleteItems_keys]
  · intro id different
    simp only [receiveSelected,Depot.liveItems]
    rw [deleteItems_other _ _ different,deleteItems_other _ _ different]
  · intro orderId
    simp only [receiveSelected,Depot.pointer,updateWhere_row,Option.map_map]
    apply pointer_released bound
    · intro row idle
      exact setColumns_unbound (detached_pointer _) (setColumns_unbound (receivedOrder_pointer _ _ _) idle)
    · intro row held present pointed points
      have both := parted orderId
      rw [pointed,Option.some.injEq] at both
      simp only [Function.comp_apply]
      rw [setColumns_released (detached_pointer _) ((setColumns_deleted (receivedOrder_deleted _ _ _)).trans present),
        setColumns_released (receivedOrder_pointer _ _ _) present,points]
      by_cases left : orderId ∈ remaining
      · exact (if_pos (List.contains_iff_mem.mpr left)).trans (if_pos (both.mp (.inr left))).symm
      · refine (if_neg fun chosen => left (List.contains_iff_mem.mp chosen)).trans ?_
        by_cases taken : orderId ∈ selected
        · exact (if_pos (List.contains_iff_mem.mpr taken)).trans (if_pos (both.mp (.inl taken))).symm
        · have elsewhere : ¬held = batchId := fun same => (both.mpr same).elim taken left
          exact (if_neg fun chosen => taken (List.contains_iff_mem.mp chosen)).trans (if_neg elsewhere).symm
  · intro orderId
    simp only [receiveSelected,Depot.alive,updateWhere_row,Option.map_map]
    apply alive_kept
    intro row
    simp only [Function.comp_apply]
    rw [setColumns_live (detached_live _),setColumns_live (receivedOrder_live _ _ _)]

theorem cancelBatch_bound (bound : Bound depot) (stored : depot.batches.row batchId = some batch) :
    Bound (cancelBatch now batchId batch depot) := by
  have kept := bound.kept batchId batch stored
  apply bound_close (fun id => id = batchId) bound
  · dsimp only [cancelBatch]
    exact updateWhere_keyed _ _ _ bound.keyed
  · exact put_keyed bound.batchKeyed _ _
  · rfl
  · exact other_row _ _ _
  · exact closed_row rfl kept (by simp [stored])
  · rfl
  · exact fun _ _ => rfl
  · intro orderId
    simp only [cancelBatch,Depot.pointer,updateWhere_row]
    apply pointer_released bound
    · exact fun row idle => setColumns_unbound (fun _ => rfl) idle
    · intro row held present _ points
      rw [setColumns_released (fun _ => rfl) present,points]
      simp
  · intro orderId
    simp only [cancelBatch,Depot.alive,updateWhere_row]
    exact alive_kept fun row => setColumns_live fun _ => rfl

theorem cancelBatches_parts (cancelled : cancelBranchTransferBatches now batchIds remove depot = .ok next) :
    (∀ id ∈ batchIds,depot.batches.row id ≠ none) ∧
      next = {depot with
        batches:=depot.batches.map fun entry => (entry.1,
          if batchIds.contains entry.1 && !entry.2.isDeleted then {entry.2 with status:=.cancelled,cancelledAt:=some now} else entry.2),
        orders:=if remove then
            updateWhere now (fun _ order => order.currentBatchId.any fun id => batchIds.contains id) unbind depot.orders
          else depot.orders} := by
  unfold cancelBranchTransferBatches at cancelled
  split at cancelled
  · cases cancelled
  split at cancelled
  · cases cancelled
  · rename_i present
    cases cancelled
    refine ⟨?_,rfl⟩
    intro id member absent
    exact present (List.any_eq_true.mpr ⟨id,member,by simp [absent]⟩)

theorem cancelBatches_bound (bound : Bound depot) (cancelled : cancelBranchTransferBatches now batchIds remove depot = .ok next)
    (lets : remove = true ∨ ∀ orderId id,depot.pointer orderId = some id → id ∉ batchIds) : Bound next := by
  obtain ⟨present,rfl⟩ := cancelBatches_parts cancelled
  apply bound_close (fun id => id ∈ batchIds) bound
  · dsimp only
    split
    · exact updateWhere_keyed _ _ _ bound.keyed
    · exact bound.keyed
  · exact map_keyed (fun key (stored : Batch) =>
      if batchIds.contains key && !stored.isDeleted then {stored with status:=.cancelled,cancelledAt:=some now} else stored) bound.batchKeyed
  · rfl
  · intro id absent
    have same := map_row depot.batches (fun key (stored : Batch) =>
      if batchIds.contains key && !stored.isDeleted then {stored with status:=.cancelled,cancelledAt:=some now} else stored) id
    rw [same]
    have unlisted : batchIds.contains id = false := by simpa using absent
    simp only [unlisted,Bool.false_and,Bool.false_eq_true,if_false]
    exact Option.map_id'
  · intro id member
    refine ⟨present id member,?_⟩
    intro found here
    have same := map_row depot.batches (fun key (stored : Batch) =>
      if batchIds.contains key && !stored.isDeleted then {stored with status:=.cancelled,cancelledAt:=some now} else stored) id
    rw [same] at here
    obtain ⟨old,stored,rfl⟩ := Option.map_eq_some_iff.mp here
    have kept := bound.kept id old stored
    simp only [List.contains_iff_mem.mpr member,kept,Bool.not_false,Bool.and_self,if_true]
    exact ⟨rfl,trivial⟩
  · rfl
  · exact fun _ _ => rfl
  · intro orderId
    cases remove with
    | true =>
      simp only [Depot.pointer,if_true,updateWhere_row]
      apply pointer_released bound
      · exact fun row idle => setColumns_unbound (fun _ => rfl) idle
      · intro row held absent _ points
        rw [setColumns_released (fun _ => rfl) absent,points]
        simp
    | false =>
      have free := lets.resolve_left (by simp) orderId
      change depot.pointer orderId = _
      cases pointed : depot.pointer orderId with
      | none => rfl
      | some held => simp [Option.filter,free held pointed]
  · intro orderId
    cases remove with
    | true =>
      simp only [Depot.alive,if_true,updateWhere_row]
      exact alive_kept fun row => setColumns_live fun _ => rfl
    | false => rfl
end Closing

theorem no_items {depot : Depot} (bound : Bound depot) : depot.liveItems depot.nextBatchId = [] := by
  apply List.filter_eq_nil_iff.mpr
  intro item member chosen
  simp only [liveIn,Bool.and_eq_true,beq_iff_eq] at chosen
  exact absurd (bound.itemsBelow item member) (by omega)
theorem no_row {depot : Depot} (bound : Bound depot) : depot.batches.row depot.nextBatchId = none := by
  by_contra present
  exact absurd (bound.below _ present) (by omega)
theorem nowhere_new {depot : Depot} (bound : Bound depot) (orderId : Nat) : depot.pointer orderId ≠ some depot.nextBatchId := by
  intro points
  obtain ⟨batch,stored,-⟩ := (bound.pointed orderId _ points).2
  rw [no_row bound] at stored
  cases stored

section Assigning
variable {depot : Depot} {batchId : Nat} {orders : Table OrderRow}

def pendingAt (depot : Depot) (id : Nat) : Prop := ∃ batch,depot.batches.row id = some batch ∧ batch.status = .pending
theorem pendingAt_open {id : Nat} (pending : pendingAt depot id) : openAt depot id := by
  obtain ⟨batch,stored,isPending⟩ := pending
  exact ⟨batch,stored,by rw [isPending]; rfl⟩

theorem insertBatch_row (depot : Depot) (batch : Batch) (id : Nat) :
    (depot.insertBatch batch).batches.row id = if depot.nextBatchId = id then some batch else depot.batches.row id :=
  row_put _ _ _ _

theorem insertBatch_bound (bound : Bound depot) (empty : batch.orderCount = 0 ∧ batch.totalPrice = 0) (kept : batch.isDeleted = false) :
    Bound (depot.insertBatch batch) := by
  refine ⟨bound.keyed,put_keyed bound.batchKeyed _ _,?_,bound.unique,?_,?_,?_,?_,?_⟩
  · intro id present
    rw [insertBatch_row] at present
    split at present
    · rename_i same
      exact same ▸ Nat.lt_succ_self _
    · exact Nat.lt_succ_of_lt (bound.below id present)
  · exact fun item member => Nat.lt_succ_of_lt (bound.itemsBelow item member)
  · intro id found stored
    rw [insertBatch_row] at stored
    split at stored
    · cases stored
      exact kept
    · exact bound.kept id found stored
  · rintro id ⟨found,stored,isOpen⟩ orderId
    rw [insertBatch_row] at stored
    split at stored
    · rename_i same
      subst same
      have none : (depot.insertBatch batch).liveItems depot.nextBatchId = [] := no_items bound
      rw [none]
      constructor
      · rintro ⟨⟩
      · intro points
        exact absurd points (nowhere_new bound orderId)
    · exact bound.listed id ⟨found,stored,isOpen⟩ orderId
  · intro id found stored isOpen
    rw [insertBatch_row] at stored
    split at stored
    · rename_i same
      cases stored
      subst same
      have none : (depot.insertBatch batch).liveItems depot.nextBatchId = [] := no_items bound
      rw [none]
      exact empty
    · exact bound.counted id found stored isOpen
  · intro orderId id points
    obtain ⟨alive,found,stored,isOpen⟩ := bound.pointed orderId id points
    refine ⟨alive,found,?_,isOpen⟩
    have different : depot.nextBatchId ≠ id := by
      rintro rfl
      exact nowhere_new bound orderId points
    rw [insertBatch_row,if_neg different]
    exact stored

theorem assigned_pointer (now batchId : Nat) (keyed : depot.orders.Keyed) {ids : List Nat} (all : affected (unbound ids) depot.orders = ids.length) (orderId : Nat) :
    (((updateWhere now (unbound ids) (bindTo batchId) depot.orders).row orderId).bind fun row => row.order.currentBatchId) =
      if orderId ∈ ids then some batchId else depot.pointer orderId := by
  rw [updateWhere_row,Depot.pointer]
  by_cases member : orderId ∈ ids
  · obtain ⟨row,here,present,idle⟩ := affected_all keyed all orderId member
    simp [here,setColumns,unbound,present,idle,member,bindTo]
  · cases here : depot.orders.row orderId with
    | none => simp [member]
    | some row => simp [setColumns,unbound,member]

theorem itemOf_live (batchId id : Nat) (orders : Table OrderRow) :
    (orders.map (itemOf batchId)).filter (liveIn id) = if batchId = id then orders.map (itemOf batchId) else [] := by
  split
  · rename_i same
    apply List.filter_eq_self.mpr
    intro item member
    obtain ⟨entry,-,rfl⟩ := List.mem_map.mp member
    simp [liveIn,itemOf,same]
  · rename_i different
    apply List.filter_eq_nil_iff.mpr
    intro item member
    obtain ⟨entry,-,rfl⟩ := List.mem_map.mp member
    simp [liveIn,itemOf,different]

-- The orders of the group, the batch and its items after an assignment.
theorem assignOrders_views (keyed : depot.orders.Keyed) (assigned : assignOrders now batchId orders depot = .ok next) :
    (∀ id,next.batches.row id = if batchId = id then (depot.batches.row id).map (countIn orders) else depot.batches.row id) ∧
    (∀ id,next.liveItems id = depot.liveItems id ++ if batchId = id then orders.map (itemOf batchId) else []) ∧
    (∀ orderId,next.pointer orderId = if orderId ∈ orders.map (·.1) then some batchId else depot.pointer orderId) ∧
    (∀ orderId,next.alive orderId = depot.alive orderId) := by
  obtain ⟨all,-,rfl⟩ := assignOrders_parts assigned
  refine ⟨update_row batchId (countIn orders) depot.batches,?_,assigned_pointer now batchId keyed all,?_⟩
  · intro id
    rw [Depot.liveItems,List.filter_append,itemOf_live]
    rfl
  · intro orderId
    simp only [Depot.alive,updateWhere_row]
    exact alive_kept fun row => setColumns_live (bindTo_live batchId)

theorem assignOrders_unique (unique : (depot.items.map itemKey).Nodup) (assigned : assignOrders now batchId orders depot = .ok next)
    (keyed : Table.Keyed orders) : (next.items.map itemKey).Nodup := by
  obtain ⟨-,fresh,rfl⟩ := assignOrders_parts assigned
  have keys : (orders.map (itemOf batchId)).map itemKey = (orders.map (·.1)).map fun orderId => (batchId,orderId) := by
    simp [itemOf,itemKey,Function.comp_def]
  rw [List.map_append,List.nodup_append,keys]
  refine ⟨unique,List.Nodup.map (fun _ _ same => (Prod.mk.inj same).2) keyed,?_⟩
  intro key old key' new same
  subst same
  obtain ⟨item,present,rfl⟩ := List.mem_map.mp old
  obtain ⟨orderId,listed,same⟩ := List.mem_map.mp new
  obtain ⟨entry,inside,rfl⟩ := List.mem_map.mp listed
  exact fresh entry inside item present ⟨(congrArg Prod.fst same).symm,(congrArg Prod.snd same).symm⟩

theorem assignOrders_bound (bound : Bound depot) (assigned : assignOrders now batchId orders depot = .ok next)
    (isOpen : openAt depot batchId) (keyed : Table.Keyed orders) (alive : ∀ entry ∈ orders,depot.alive entry.1 = true) : Bound next := by
  obtain ⟨rows,items,pointer,alives⟩ := assignOrders_views bound.keyed assigned
  have unique := assignOrders_unique bound.unique assigned keyed
  obtain ⟨all,-,same⟩ := assignOrders_parts assigned
  have sameNext : next.nextBatchId = depot.nextBatchId := by rw [same]
  have newOrders : (orders.map (itemOf batchId)).map (·.orderId) = orders.map (·.1) := by
    simp [Function.comp_def,itemOf]
  have before : ∀ id found,next.batches.row id = some found →
      ∃ old,depot.batches.row id = some old ∧ found = if batchId = id then countIn orders old else old := by
    intro id found here
    rw [rows] at here
    by_cases chosen : batchId = id
    · rw [if_pos chosen] at here
      obtain ⟨old,stored,rfl⟩ := Option.map_eq_some_iff.mp here
      exact ⟨old,stored,(if_pos chosen).symm⟩
    · rw [if_neg chosen] at here
      exact ⟨found,here,(if_neg chosen).symm⟩
  have status : ∀ id (old : Batch),(if batchId = id then countIn orders old else old).status = old.status := by
    intro id old
    split
    · rfl
    · rfl
  have opens : ∀ id,openAt next id ↔ openAt depot id := by
    intro id
    constructor
    · rintro ⟨found,here,foundOpen⟩
      obtain ⟨old,stored,rfl⟩ := before id found here
      exact ⟨old,stored,status id old ▸ foundOpen⟩
    · rintro ⟨old,stored,oldOpen⟩
      refine ⟨if batchId = id then countIn orders old else old,?_,(status id old).symm ▸ oldOpen⟩
      rw [rows,stored]
      by_cases chosen : batchId = id
      · rw [if_pos chosen,if_pos chosen,Option.map_some]
      · rw [if_neg chosen,if_neg chosen]
  refine ⟨?_,?_,?_,unique,?_,?_,?_,?_,?_⟩
  · rw [same]
    exact updateWhere_keyed _ _ _ bound.keyed
  · rw [same]
    exact apply_keyed _ bound.batchKeyed
  · intro id present
    obtain ⟨found,here⟩ := Option.ne_none_iff_exists'.mp present
    obtain ⟨old,stored,-⟩ := before id found here
    rw [sameNext]
    exact bound.below id (by simp [stored])
  · intro item member
    rw [same] at member
    rw [sameNext]
    rcases List.mem_append.mp member with old | new
    · exact bound.itemsBelow item old
    · obtain ⟨entry,-,rfl⟩ := List.mem_map.mp new
      obtain ⟨batch,stored,-⟩ := isOpen
      exact bound.below batchId (by simp [stored])
  · intro id found here
    obtain ⟨old,stored,rfl⟩ := before id found here
    split
    · exact bound.kept id old stored
    · exact bound.kept id old stored
  · intro id foundOpen orderId
    rw [items,pointer,List.map_append,List.mem_append,bound.listed id ((opens id).mp foundOpen) orderId]
    by_cases member : orderId ∈ orders.map (·.1)
    · obtain ⟨row,present,-,idle⟩ := affected_all bound.keyed all orderId member
      have nowhere : depot.pointer orderId = none := by simp [Depot.pointer,present,idle]
      by_cases chosen : batchId = id
      · rw [if_pos chosen,if_pos member,newOrders]
        simp only [member,or_true,chosen]
      · rw [if_neg chosen,if_pos member,nowhere]
        simp [chosen]
    · by_cases chosen : batchId = id
      · rw [if_pos chosen,if_neg member,newOrders]
        simp only [member,or_false]
      · rw [if_neg chosen,if_neg member]
        simp
  · intro id found here foundOpen
    obtain ⟨old,stored,rfl⟩ := before id found here
    rw [status] at foundOpen
    obtain ⟨count,total⟩ := bound.counted id old stored foundOpen
    rw [items]
    by_cases chosen : batchId = id
    · rw [if_pos chosen,if_pos chosen]
      simp [countIn,count,total,snapshotTotal,itemOf,Function.comp_def]
    · rw [if_neg chosen,if_neg chosen,List.append_nil]
      exact ⟨count,total⟩
  · intro orderId id points
    rw [pointer] at points
    rw [alives,opens]
    split at points
    · rename_i member
      cases points
      obtain ⟨entry,listed,rfl⟩ := List.mem_map.mp member
      exact ⟨alive entry listed,isOpen⟩
    · exact bound.pointed orderId id points

theorem assignOrders_pending (keyed : depot.orders.Keyed) (assigned : assignOrders now batchId orders depot = .ok next) {id : Nat}
    (pending : pendingAt depot id) : pendingAt next id := by
  obtain ⟨batch,stored,isPending⟩ := pending
  obtain ⟨rows,-⟩ := assignOrders_views keyed assigned
  by_cases chosen : batchId = id
  · exact ⟨countIn orders batch,by rw [rows,if_pos chosen,stored,Option.map_some],isPending⟩
  · exact ⟨batch,by rw [rows,if_neg chosen,stored],isPending⟩

-- What finding or creating the batch of a group may do.
def Places (depot : Depot) (placed : Nat × Depot) : Prop :=
  placed.2 = depot ∧ pendingAt depot placed.1 ∨ ∃ now source destination direction region key,
    placed = (depot.nextBatchId,depot.insertBatch (newBatch now source destination direction region key))

theorem places_bound {placed : Nat × Depot} (bound : Bound depot) (places : Places depot placed) :
    Bound placed.2 ∧ pendingAt placed.2 placed.1 ∧ placed.2.orders = depot.orders ∧ ∀ id,pendingAt depot id → pendingAt placed.2 id := by
  rcases places with ⟨same,pending⟩ | ⟨now,source,destination,direction,region,key,rfl⟩
  · rw [same]
    exact ⟨bound,pending,rfl,fun _ pending => pending⟩
  · refine ⟨insertBatch_bound bound ⟨rfl,rfl⟩ rfl,⟨_,(insertBatch_row _ _ _).trans (if_pos rfl),rfl⟩,rfl,?_⟩
    rintro id ⟨batch,stored,isPending⟩
    refine ⟨batch,?_,isPending⟩
    have different : depot.nextBatchId ≠ id := by
      rintro rfl
      rw [no_row bound] at stored
      cases stored
    rw [insertBatch_row,if_neg different,stored]

theorem assignGroups_bound {place : Nat → Table OrderRow → Depot → Except RpcError (Nat × Depot)} (watch : Nat → Prop)
    (places : ∀ group orders current placed,Bound current → (∀ id,watch id → pendingAt current id) →
      place group orders current = .ok placed → Places current placed) (groups : List (Nat × Table OrderRow)) :
    ∀ {depot next : Depot},Bound depot → (∀ id,watch id → pendingAt depot id) →
      (∀ part ∈ groups,Table.Keyed part.2 ∧ ∀ entry ∈ part.2,depot.alive entry.1 = true) →
      assignGroups now place groups depot = .ok next → Bound next := by
  induction groups with
  | nil =>
    intro depot next bound _ _ assigned
    cases assigned
    exact bound
  | cons part rest ih =>
    obtain ⟨group,orders⟩ := part
    intro depot next bound watched parts assigned
    obtain ⟨placed,found,assigned⟩ := error_bind_parts assigned
    obtain ⟨middle,first,assigned⟩ := error_bind_parts assigned
    obtain ⟨placedBound,target,sameOrders,pending⟩ := places_bound bound (places group orders depot placed bound watched found)
    obtain ⟨keyed,alive⟩ := parts (group,orders) List.mem_cons_self
    have placedAlive : ∀ orderId,placed.2.alive orderId = depot.alive orderId := by
      intro orderId
      rw [Depot.alive,sameOrders]
      rfl
    have middleBound := assignOrders_bound placedBound first (pendingAt_open target) keyed fun entry member =>
      (placedAlive entry.1).trans (alive entry member)
    have middleAlive := (assignOrders_views placedBound.keyed first).2.2.2
    apply ih middleBound ?_ ?_ assigned
    · exact fun id watching => assignOrders_pending placedBound.keyed first (pending id (watched id watching))
    · intro later member
      obtain ⟨laterKeyed,laterAlive⟩ := parts later (.tail _ member)
      refine ⟨laterKeyed,fun entry listed => ?_⟩
      rw [middleAlive,placedAlive]
      exact laterAlive entry listed

theorem pendingBatches_pending {id : Nat} {direction : BatchDirection} (keyed : depot.batches.Keyed) (member : (id,batch) ∈ depot.pendingBatches source destination direction) :
    pendingAt depot id := by
  obtain ⟨stored,chosen⟩ := select_row keyed member
  simp only [Bool.and_eq_true,beq_iff_eq] at chosen
  exact ⟨batch,stored,chosen.1.2⟩
theorem group_parts {group : Order → Option Nat} {orders : Table OrderRow} (keyed : depot.orders.Keyed) (ordersKeyed : Table.Keyed orders)
    (alive : ∀ entry ∈ orders,entry ∈ depot.orders ∧ live entry.2.order = true) :
    ∀ part ∈ groupBy group orders,Table.Keyed part.2 ∧ ∀ entry ∈ part.2,depot.alive entry.1 = true := by
  rintro ⟨value,part⟩ member
  refine ⟨groupBy_keyed ordersKeyed member,?_⟩
  intro entry listed
  obtain ⟨present,isLive⟩ := alive entry (groupBy_mem member listed)
  exact alive_some.mpr ⟨entry.2,(row_exact keyed).mp present,isLive⟩

theorem createTransfer_bound (bound : Bound depot) (created : createBranchTransferBatches now input depot = .ok next) : Bound next := by
  rcases createTransfer_parts created with rfl | ⟨key,pending,orders,each,keyed,reusable,assigned⟩
  · exact bound
  · have reusablePending : ∀ id,(∃ batch,(id,batch) ∈ pending) → pendingAt depot id := by
      rintro id ⟨batch,listed⟩
      exact pendingBatches_pending bound.batchKeyed (reusable (id,batch) listed)
    refine assignGroups_bound (fun id => ∃ batch,(id,batch) ∈ pending) ?_ _ bound reusablePending
      (group_parts bound.keyed (keyed bound.keyed) fun entry listed => ⟨(each entry listed).1,(each entry listed).2.1⟩) assigned
    intro group orders current placed _ watched found
    rcases placeInRegion_parts found with ⟨batch,listed,same⟩ | fresh
    · exact .inl ⟨same,watched _ ⟨batch,listed⟩⟩
    · exact .inr ⟨_,_,_,_,_,_,fresh⟩

theorem createReturn_bound (bound : Bound depot) (created : createBranchReturnBatches now input depot = .ok next) : Bound next := by
  rcases createReturn_parts created with rfl | ⟨key,orders,each,keyed,assigned⟩
  · exact bound
  · refine assignGroups_bound (fun _ => False) ?_ _ bound (fun _ impossible => impossible.elim)
      (group_parts bound.keyed (keyed bound.keyed) fun entry listed => ⟨(each entry listed).1,(each entry listed).2.1⟩) assigned
    intro group orders current placed currentBound _ found
    rcases placeReturn_parts found with ⟨batch,listed,same⟩ | ⟨region,fresh⟩
    · exact .inl ⟨same,pendingBatches_pending currentBound.batchKeyed listed⟩
    · exact .inr ⟨_,_,_,_,_,_,fresh⟩
end Assigning

theorem itemsToMark_parts (selected : itemsToMark items orderIds = .ok toMark) (distinct : orderIds.Nodup) :
    (∀ item ∈ toMark,item ∈ items ∧ item.sentAt = none ∧ item.orderId ∈ orderIds) ∧ (toMark.map (·.orderId)).Nodup ∧ toMark ≠ [] := by
  unfold itemsToMark at selected
  dsimp only at selected
  split at selected
  · cases selected
  split at selected
  · cases selected
  rename_i some
  cases selected
  refine ⟨?_,?_,by simpa using some⟩
  · intro item member
    obtain ⟨listed,unsent⟩ := List.mem_filter.mp member
    obtain ⟨orderId,chosen,found⟩ := List.mem_filterMap.mp listed
    have same : item.orderId = orderId := by simpa using List.find?_some found
    exact ⟨List.mem_of_find?_eq_some found,by simpa using unsent,same ▸ chosen⟩
  · -- the items found carry the ids they were looked up by
    apply List.Nodup.sublist (List.Sublist.map _ List.filter_sublist)
    rename_i all
    clear some all
    induction orderIds with
    | nil => simp
    | cons orderId rest ih =>
      obtain ⟨absent,tail⟩ := List.nodup_cons.mp distinct
      rw [List.filterMap_cons]
      cases found : items.find? fun item => item.orderId == orderId with
      | none => exact ih tail
      | some item =>
        rw [List.map_cons,List.nodup_cons]
        refine ⟨?_,ih tail⟩
        intro again
        obtain ⟨other,listed,same⟩ := List.mem_map.mp again
        obtain ⟨otherId,chosen,otherFound⟩ := List.mem_filterMap.mp listed
        have here : item.orderId = orderId := by simpa using List.find?_some found
        have there : other.orderId = otherId := by simpa using List.find?_some otherFound
        exact absent (here ▸ same ▸ there ▸ chosen)

-- Marking changes the sent time only.
section Marking
variable {now batchId : Nat} {ids : List Nat}

theorem markItems_keys (items : List BatchItem) : (markItems now batchId ids items).map itemKey = items.map itemKey := by
  rw [markItems,List.map_map]
  apply List.map_congr_left
  intro item _
  simp only [Function.comp_apply]
  split
  · rfl
  · rfl
theorem markItems_orders (items : List BatchItem) : (markItems now batchId ids items).map (·.orderId) = items.map (·.orderId) := by
  rw [markItems,List.map_map]
  apply List.map_congr_left
  intro item _
  simp only [Function.comp_apply]
  split
  · rfl
  · rfl
theorem markItems_total (items : List BatchItem) : snapshotTotal (markItems now batchId ids items) = snapshotTotal items := by
  rw [snapshotTotal,snapshotTotal,markItems,List.map_map]
  congr 1
  apply List.map_congr_left
  intro item _
  simp only [Function.comp_apply]
  split
  · rfl
  · rfl
theorem markItems_filter (test : BatchItem → Bool) (blind : ∀ item time,test {item with sentAt:=time} = test item) (items : List BatchItem) :
    (markItems now batchId ids items).filter test = markItems now batchId ids (items.filter test) := by
  rw [markItems,markItems,List.filter_map]
  congr 1
  apply List.filter_congr
  intro item _
  simp only [Function.comp_apply]
  split
  · exact blind item (some now)
  · rfl
theorem markItems_below {items : List BatchItem} {bound : Nat} (below : ∀ item ∈ items,item.batchId < bound) :
    ∀ item ∈ markItems now batchId ids items,item.batchId < bound := by
  intro item member
  obtain ⟨old,listed,rfl⟩ := List.mem_map.mp member
  split
  · exact below old listed
  · exact below old listed

theorem mark_liveItems (depot : Depot) (id : Nat) :
    (markSent now batchId ids depot).liveItems id = markItems now batchId ids (depot.liveItems id) :=
  markItems_filter _ (fun _ _ => rfl) _
theorem mark_bound {depot : Depot} (bound : Bound depot) : Bound (markSent now batchId ids depot) := by
  refine ⟨bound.keyed,bound.batchKeyed,bound.below,(markItems_keys depot.items).symm ▸ bound.unique,markItems_below bound.itemsBelow,
    bound.kept,?_,?_,bound.pointed⟩
  · intro id isOpen orderId
    rw [mark_liveItems,markItems_orders]
    exact bound.listed id isOpen orderId
  · intro id batch stored isOpen
    rw [mark_liveItems,markItems_total,markItems,List.length_map]
    exact bound.counted id batch stored isOpen
end Marking

theorem applyAll_tracks {P : Depot → Prop} (keeps : ∀ depot event,P depot → P (depot.track event)) (events : Journal TrackingEvent)
    {depot : Depot} (holds : P depot) :
    P (applyAll (trackEach events) depot) := by
  induction events generalizing depot with
  | nil => exact holds
  | cons event rest ih => exact ih (keeps depot event holds)
theorem track_bound {depot : Depot} (event : Nat × TrackingEvent) (bound : Bound depot) : Bound (depot.track event) :=
  ⟨bound.keyed,bound.batchKeyed,bound.below,bound.unique,bound.itemsBelow,bound.kept,bound.listed,bound.counted,bound.pointed⟩

section Sending
variable {depot : Depot} {batch : Batch} {now batchId : Nat} {ids : List Nat}

theorem sent_pointer (sentBatchId orderId : Nat) :
    (sendOrders now batchId sentBatchId batch ids depot).pointer orderId =
      (depot.orders.row orderId).bind fun row =>
        if row.order.isDeleted = false ∧ orderId ∈ ids ∧ row.order.currentBatchId = some batchId then some sentBatchId
        else row.order.currentBatchId := by
  simp only [sendOrders,Depot.pointer,updateWhere_row]
  cases depot.orders.row orderId with
  | none => rfl
  | some row =>
    rw [Option.map_some,Option.bind_some,Option.bind_some]
    unfold setColumns
    by_cases reached : row.order.isDeleted = false ∧ orderId ∈ ids ∧ row.order.currentBatchId = some batchId
    · simp [reached.1,reached.2.1,reached.2.2,sentOrder]
    · rw [if_neg reached,if_neg]
      simpa [and_assoc] using reached
theorem sent_alive (sentBatchId orderId : Nat) :
    (sendOrders now batchId sentBatchId batch ids depot).alive orderId = depot.alive orderId := by
  simp only [sendOrders,Depot.alive,updateWhere_row]
  exact alive_kept fun row => setColumns_live fun _ => rfl
theorem sent_pointer_alive (alive : ∀ orderId,depot.pointer orderId = some batchId → depot.alive orderId = true) (sentBatchId orderId : Nat) :
    (sendOrders now batchId sentBatchId batch ids depot).pointer orderId =
      if orderId ∈ ids ∧ depot.pointer orderId = some batchId then some sentBatchId else depot.pointer orderId := by
  rw [sent_pointer]
  cases here : depot.orders.row orderId with
  | none => simp [Depot.pointer,here]
  | some row =>
    have pointer : depot.pointer orderId = row.order.currentBatchId := by simp [Depot.pointer,here]
    rw [pointer,Option.bind_some]
    by_cases reached : orderId ∈ ids ∧ row.order.currentBatchId = some batchId
    · obtain ⟨row',here',isLive⟩ := alive_some.mp (alive orderId (pointer.trans reached.2))
      cases here.symm.trans here'
      rw [if_pos reached,if_pos ⟨live_kept isLive,reached⟩]
    · rw [if_neg reached,if_neg fun all => reached all.2]

-- The whole batch leaves: it is saved as sent, and its orders go on pointing at it.
theorem resave_bound (bound : Bound depot) (stored : depot.batches.row batchId = some batch) (wasOpen : isOpen batch.status = true)
    (saved : Batch) (nowOpen : isOpen saved.status = true) (kept : saved.isDeleted = false)
    (same : saved.orderCount = batch.orderCount ∧ saved.totalPrice = batch.totalPrice) : Bound (depot.saveBatch batchId saved) := by
  have rows : ∀ id,(depot.saveBatch batchId saved).batches.row id = if batchId = id then some saved else depot.batches.row id :=
    fun id => row_put _ _ id _
  have opens : ∀ id,openAt (depot.saveBatch batchId saved) id ↔ openAt depot id := by
    intro id
    unfold openAt
    rw [rows]
    by_cases here : batchId = id
    · subst here
      rw [if_pos rfl]
      exact ⟨fun _ => ⟨batch,stored,wasOpen⟩,fun _ => ⟨saved,rfl,nowOpen⟩⟩
    · rw [if_neg here]
  refine ⟨bound.keyed,put_keyed bound.batchKeyed _ _,?_,bound.unique,bound.itemsBelow,?_,?_,?_,?_⟩
  · intro id present
    rw [rows] at present
    by_cases here : batchId = id
    · exact bound.below id (by simp [←here,stored])
    · rw [if_neg here] at present
      exact bound.below id present
  · intro id found here
    rw [rows] at here
    by_cases chosen : batchId = id
    · rw [if_pos chosen] at here
      cases here
      exact kept
    · rw [if_neg chosen] at here
      exact bound.kept id found here
  · exact fun id isOpen orderId => bound.listed id ((opens id).mp isOpen) orderId
  · intro id found here foundOpen
    rw [rows] at here
    by_cases chosen : batchId = id
    · rw [if_pos chosen] at here
      cases here
      subst chosen
      rw [same.1,same.2]
      exact bound.counted batchId batch stored wasOpen
    · rw [if_neg chosen] at here
      exact bound.counted id found here foundOpen
  · intro orderId id points
    obtain ⟨alive,isOpen⟩ := bound.pointed orderId id points
    exact ⟨alive,(opens id).mpr isOpen⟩

theorem sendWhole_bound (bound : Bound depot) (stored : depot.batches.row batchId = some batch) (wasOpen : isOpen batch.status = true)
    (input : SendInput) : Bound (sendOrders now batchId batchId batch ids (depot.saveBatch batchId (sentBatch now input batch))) := by
  have saved := resave_bound bound stored wasOpen (sentBatch now input batch) rfl (bound.kept batchId batch stored) ⟨rfl,rfl⟩
  have pointer : ∀ orderId,(sendOrders now batchId batchId batch ids (depot.saveBatch batchId (sentBatch now input batch))).pointer orderId =
      depot.pointer orderId := by
    intro orderId
    rw [sent_pointer_alive (fun orderId points => (saved.pointed orderId batchId points).1)]
    split
    · rename_i reached
      exact reached.2.symm
    · rfl
  refine ⟨?_,saved.batchKeyed,saved.below,saved.unique,saved.itemsBelow,saved.kept,?_,saved.counted,?_⟩
  · dsimp only [sendOrders]
    exact updateWhere_keyed _ _ _ saved.keyed
  · intro id isOpen orderId
    rw [pointer]
    exact saved.listed id isOpen orderId
  · intro orderId id points
    rw [pointer] at points
    rw [sent_alive]
    exact saved.pointed orderId id points

theorem moveItems_other {items : List BatchItem} {sentBatchId id : Nat} (notFrom : batchId ≠ id) (notTo : sentBatchId ≠ id) :
    (moveItems batchId sentBatchId ids items).filter (liveIn id) = items.filter (liveIn id) := by
  induction items with
  | nil => rfl
  | cons item rest ih =>
    rw [moveItems,List.map_cons,List.filter_cons,List.filter_cons,←moveItems,ih]
    by_cases moved : item.batchId = batchId ∧ item.orderId ∈ ids ∧ item.isDeleted = false
    · simp [liveIn,moved,notFrom,notTo]
    · rw [if_neg moved]
theorem moveItems_from {items : List BatchItem} {sentBatchId : Nat} (apart : sentBatchId ≠ batchId) :
    (moveItems batchId sentBatchId ids items).filter (liveIn batchId) =
      (items.filter (liveIn batchId)).filter fun item => !decide (item.orderId ∈ ids) := by
  induction items with
  | nil => rfl
  | cons item rest ih =>
    rw [moveItems,List.map_cons,List.filter_cons,List.filter_cons,←moveItems,ih]
    by_cases inside : liveIn batchId item = true
    · have here : item.batchId = batchId ∧ item.isDeleted = false := by simpa [liveIn] using inside
      by_cases chosen : item.orderId ∈ ids
      · simp [liveIn,here,chosen,apart]
      · simp [liveIn,here,chosen]
    · have stays : ¬(item.batchId = batchId ∧ item.orderId ∈ ids ∧ item.isDeleted = false) := by
        rintro ⟨same,-,present⟩
        exact inside (by simp [liveIn,same,present])
      rw [if_neg stays,if_neg inside,if_neg inside]
theorem moveItems_to {items : List BatchItem} {sentBatchId : Nat} (fresh : ∀ item ∈ items,item.batchId ≠ sentBatchId) :
    (moveItems batchId sentBatchId ids items).filter (liveIn sentBatchId) =
      ((items.filter (liveIn batchId)).filter fun item => decide (item.orderId ∈ ids)).map fun item => {item with batchId:=sentBatchId} := by
  induction items with
  | nil => rfl
  | cons item rest ih =>
    have different : item.batchId ≠ sentBatchId := fresh item List.mem_cons_self
    have later := ih fun other member => fresh other (.tail _ member)
    rw [moveItems,List.map_cons,List.filter_cons,List.filter_cons,←moveItems,later]
    by_cases moved : item.batchId = batchId ∧ item.orderId ∈ ids ∧ item.isDeleted = false
    · simp [liveIn,moved]
    · rw [if_neg moved]
      have notThere : liveIn sentBatchId item = false := by simp [liveIn,different]
      rw [notThere]
      by_cases inside : liveIn batchId item = true
      · have here : item.batchId = batchId ∧ item.isDeleted = false := by simpa [liveIn] using inside
        have absent : item.orderId ∉ ids := fun chosen => moved ⟨here.1,chosen,here.2⟩
        simp [inside,absent]
      · simp [inside]
theorem moveItems_unique {items : List BatchItem} {sentBatchId : Nat} (unique : (items.map itemKey).Nodup)
    (fresh : ∀ item ∈ items,item.batchId ≠ sentBatchId) : ((moveItems batchId sentBatchId ids items).map itemKey).Nodup := by
  rw [moveItems,List.map_map]
  apply List.Nodup.map_on ?_ (List.Nodup.of_map _ unique)
  intro left inLeft right inRight same
  apply List.inj_on_of_nodup_map unique inLeft inRight
  simp only [Function.comp_apply] at same
  by_cases movedLeft : left.batchId = batchId ∧ left.orderId ∈ ids ∧ left.isDeleted = false
  · by_cases movedRight : right.batchId = batchId ∧ right.orderId ∈ ids ∧ right.isDeleted = false
    · rw [if_pos movedLeft,if_pos movedRight] at same
      have orders : left.orderId = right.orderId := congrArg Prod.snd same
      rw [itemKey,itemKey,movedLeft.1,movedRight.1,orders]
    · rw [if_pos movedLeft,if_neg movedRight] at same
      exact absurd (congrArg Prod.fst same).symm (fresh right inRight)
  · by_cases movedRight : right.batchId = batchId ∧ right.orderId ∈ ids ∧ right.isDeleted = false
    · rw [if_neg movedLeft,if_pos movedRight] at same
      exact absurd (congrArg Prod.fst same) (fresh left inLeft)
    · rw [if_neg movedLeft,if_neg movedRight] at same
      exact same

-- A part of the batch leaves in a new one; both are counted again.
def splitDepot (now batchId : Nat) (ids : List Nat) (batch part rest : Batch) (depot : Depot) : Depot :=
  sendOrders now batchId depot.nextBatchId batch ids
    ((moveTo batchId depot.nextBatchId ids (depot.insertBatch part)).saveBatch batchId rest)

theorem split_bound {part rest : Batch} (bound : Bound depot) (stored : depot.batches.row batchId = some batch)
    (wasOpen : isOpen batch.status = true) (partOpen : isOpen part.status = true) (restOpen : isOpen rest.status = true)
    (partKept : part.isDeleted = false) (restKept : rest.isDeleted = false)
    (partCount : part.orderCount = ((depot.liveItems batchId).filter fun item => decide (item.orderId ∈ ids)).length ∧
      part.totalPrice = snapshotTotal ((depot.liveItems batchId).filter fun item => decide (item.orderId ∈ ids)))
    (restCount : rest.orderCount = ((depot.liveItems batchId).filter fun item => !decide (item.orderId ∈ ids)).length ∧
      rest.totalPrice = snapshotTotal ((depot.liveItems batchId).filter fun item => !decide (item.orderId ∈ ids)))
    (chosen : ∀ orderId ∈ ids,orderId ∈ (depot.liveItems batchId).map (·.orderId)) :
    Bound (splitDepot now batchId ids batch part rest depot) := by
  have apart : depot.nextBatchId ≠ batchId := by
    rintro same
    rw [←same,no_row bound] at stored
    cases stored
  have fresh : ∀ item ∈ depot.items,item.batchId ≠ depot.nextBatchId := fun item member => Nat.ne_of_lt (bound.itemsBelow item member)
  have listed := bound.listed batchId ⟨batch,stored,wasOpen⟩
  have rows : ∀ id,(splitDepot now batchId ids batch part rest depot).batches.row id =
      if batchId = id then some rest else if depot.nextBatchId = id then some part else depot.batches.row id := by
    intro id
    refine (row_put _ _ id _).trans ?_
    exact congrArg (fun other => if batchId = id then some rest else other) (row_put _ _ id _)
  have pointer : ∀ orderId,(splitDepot now batchId ids batch part rest depot).pointer orderId =
      if orderId ∈ ids ∧ depot.pointer orderId = some batchId then some depot.nextBatchId else depot.pointer orderId := by
    intro orderId
    refine (sent_pointer_alive ?_ _ orderId).trans rfl
    exact fun orderId points => (bound.pointed orderId batchId points).1
  have alive : ∀ orderId,(splitDepot now batchId ids batch part rest depot).alive orderId = depot.alive orderId :=
    fun orderId => sent_alive _ orderId
  have wasOpenAt : ∀ id,openAt (splitDepot now batchId ids batch part rest depot) id → id = depot.nextBatchId ∨ openAt depot id := by
    rintro id ⟨found,here,foundOpen⟩
    rw [rows] at here
    by_cases old : batchId = id
    · exact .inr (old ▸ ⟨batch,stored,wasOpen⟩)
    · by_cases new : depot.nextBatchId = id
      · exact .inl new.symm
      · rw [if_neg old,if_neg new] at here
        exact .inr ⟨found,here,foundOpen⟩
  have opens : ∀ id,id = depot.nextBatchId ∨ openAt depot id → openAt (splitDepot now batchId ids batch part rest depot) id := by
    intro id isOpen
    unfold openAt
    rw [rows]
    by_cases old : batchId = id
    · exact ⟨rest,if_pos old,restOpen⟩
    · by_cases new : depot.nextBatchId = id
      · exact ⟨part,by rw [if_neg old,if_pos new],partOpen⟩
      · rw [if_neg old,if_neg new]
        exact isOpen.resolve_left (Ne.symm new)
  have fromItems : (splitDepot now batchId ids batch part rest depot).liveItems batchId =
      (depot.liveItems batchId).filter fun item => !decide (item.orderId ∈ ids) := moveItems_from apart
  have toItems : (splitDepot now batchId ids batch part rest depot).liveItems depot.nextBatchId =
      ((depot.liveItems batchId).filter fun item => decide (item.orderId ∈ ids)).map fun item => {item with batchId:=depot.nextBatchId} :=
    moveItems_to fresh
  have otherItems : ∀ id,batchId ≠ id → depot.nextBatchId ≠ id →
      (splitDepot now batchId ids batch part rest depot).liveItems id = depot.liveItems id := fun id => moveItems_other
  refine ⟨?_,put_keyed (put_keyed bound.batchKeyed _ _) _ _,?_,moveItems_unique bound.unique fresh,?_,?_,?_,?_,?_⟩
  · dsimp only [splitDepot,sendOrders]
    exact updateWhere_keyed _ _ _ bound.keyed
  · intro id present
    change id < depot.nextBatchId + 1
    rw [rows] at present
    by_cases old : batchId = id
    · exact Nat.lt_succ_of_lt (bound.below id (by simp [←old,stored]))
    · by_cases new : depot.nextBatchId = id
      · omega
      · rw [if_neg old,if_neg new] at present
        exact Nat.lt_succ_of_lt (bound.below id present)
  · intro item member
    change item.batchId < depot.nextBatchId + 1
    obtain ⟨before,there,rfl⟩ := List.mem_map.mp member
    split
    · exact Nat.lt_succ_self _
    · exact Nat.lt_succ_of_lt (bound.itemsBelow before there)
  · intro id found here
    rw [rows] at here
    by_cases old : batchId = id
    · rw [if_pos old] at here
      cases here
      exact restKept
    · by_cases new : depot.nextBatchId = id
      · rw [if_neg old,if_pos new] at here
        cases here
        exact partKept
      · rw [if_neg old,if_neg new] at here
        exact bound.kept id found here
  · intro id isOpen orderId
    rw [pointer]
    by_cases old : batchId = id
    · subst old
      rw [fromItems]
      have member : orderId ∈ (((depot.liveItems batchId).filter fun item => !decide (item.orderId ∈ ids)).map (·.orderId)) ↔
          orderId ∈ (depot.liveItems batchId).map (·.orderId) ∧ orderId ∉ ids := by
        simp only [List.mem_map,List.mem_filter,Bool.not_eq_true',decide_eq_false_iff_not]
        constructor
        · rintro ⟨item,⟨inside,absent⟩,rfl⟩
          exact ⟨⟨item,inside,rfl⟩,absent⟩
        · rintro ⟨⟨item,inside,rfl⟩,absent⟩
          exact ⟨item,⟨inside,absent⟩,rfl⟩
      rw [member,listed orderId]
      by_cases reached : orderId ∈ ids ∧ depot.pointer orderId = some batchId
      · rw [if_pos reached]
        simp [reached.1,apart]
      · rw [if_neg reached]
        exact ⟨fun both => both.1,fun points => ⟨points,fun inside => reached ⟨inside,points⟩⟩⟩
    · by_cases new : depot.nextBatchId = id
      · subst new
        rw [toItems]
        have member : orderId ∈ ((((depot.liveItems batchId).filter fun item => decide (item.orderId ∈ ids)).map
            fun item => {item with batchId:=depot.nextBatchId}).map (·.orderId)) ↔ orderId ∈ ids := by
          simp only [List.map_map,List.mem_map,List.mem_filter,decide_eq_true_eq,Function.comp_apply]
          constructor
          · rintro ⟨item,⟨_,inside⟩,rfl⟩
            exact inside
          · intro inside
            obtain ⟨item,there,rfl⟩ := List.mem_map.mp (chosen orderId inside)
            exact ⟨item,⟨there,inside⟩,rfl⟩
        rw [member]
        by_cases reached : orderId ∈ ids ∧ depot.pointer orderId = some batchId
        · rw [if_pos reached]
          simp [reached.1]
        · rw [if_neg reached]
          constructor
          · intro inside
            exact absurd ⟨inside,(listed orderId).mp (chosen orderId inside)⟩ reached
          · exact fun points => absurd points (nowhere_new bound orderId)
      · rw [otherItems id old new,bound.listed id ((wasOpenAt id isOpen).resolve_left (Ne.symm new)) orderId]
        by_cases reached : orderId ∈ ids ∧ depot.pointer orderId = some batchId
        · rw [if_pos reached,reached.2]
          simp [old,new]
        · rw [if_neg reached]
  · intro id found here foundOpen
    rw [rows] at here
    by_cases old : batchId = id
    · rw [if_pos old] at here
      cases here
      rw [←old,fromItems]
      exact restCount
    · by_cases new : depot.nextBatchId = id
      · rw [if_neg old,if_pos new] at here
        cases here
        rw [←new,toItems,List.length_map]
        refine ⟨partCount.1,partCount.2.trans ?_⟩
        simp [snapshotTotal,Function.comp_def]
      · rw [if_neg old,if_neg new] at here
        rw [otherItems id old new]
        exact bound.counted id found here foundOpen
  · intro orderId id points
    rw [alive]
    rw [pointer] at points
    split at points
    · rename_i reached
      cases points
      exact ⟨(bound.pointed orderId batchId reached.2).1,opens _ (.inl rfl)⟩
    · obtain ⟨present,isOpen⟩ := bound.pointed orderId id points
      exact ⟨present,opens id (.inr isOpen)⟩
end Sending

end Elchi.Batches
