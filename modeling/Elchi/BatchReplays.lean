import Elchi.BatchNames
namespace Elchi.Batches
open Orders RowLock

-- The replies of the two creations: the batches of the request when there are some, else the
-- batches that took the orders in.
structure BatchReply where
  idempotent : Bool
  batches : List Nat
deriving DecidableEq, Repr
def Depot.requestedBatches (depot : Depot) (sourceBranchId : Nat) (requestKey : String) : List Nat :=
  ((depot.batches.select fun _ batch => batch.sourceBranchId == sourceBranchId && batch.requestKey == requestKey &&
    [.pending,.sent,.received].contains batch.status && !batch.isDeleted).mergeSort
      fun left right => left.2.createdAt ≤ right.2.createdAt).map (·.1)
def assignGroupsTo (now : Nat) (place : Nat → Table OrderRow → Depot → Except RpcError (Nat × Depot)) :
    List (Nat × Table OrderRow) → Depot → Except RpcError (List Nat × Depot)
  | [],depot => .ok ([],depot)
  | (group,orders) :: rest,depot => do
    let placed ← place group orders depot
    let assigned ← assignOrders now placed.1 orders placed.2
    let done ← assignGroupsTo now place rest assigned
    .ok (placed.1 :: done.1,done.2)
def createdReply (done : List Nat × Depot) : BatchReply × Depot := (⟨false,done.1.eraseDups⟩,done.2)

def createTransferReplied (now : Nat) (input : TransferInput) (depot : Depot) : Except RpcError (BatchReply × Depot) := do
  let requestKey ← normalizeTransferRequestKey input.requestKey
  if depot.alreadyRequested input.sourceBranchId requestKey then
    .ok (⟨true,depot.requestedBatches input.sourceBranchId requestKey⟩,depot)
  else
    let selectedOrderIds := input.orderIds.eraseDups
    let unassignedOrders := byCreation (depot.orders.select (unassignedNew input.sourceBranchId selectedOrderIds))
    if !selectedOrderIds.isEmpty && unassignedOrders.length != selectedOrderIds.length then
      .error (badRequest "Some orders are not found, not NEW, or already assigned to another batch")
    else
      let grouped := groupBy (·.regionId) unassignedOrders
      let pending := (depot.pendingBatches input.sourceBranchId input.destinationBranchId input.direction).mergeSort
        fun left right => left.2.createdAt ≤ right.2.createdAt
      let pendingRegions := (pending.map (·.2.targetRegionId)).eraseDups
      if grouped.isEmpty then .error (badRequest "Unassigned orders for transfer not found")
      else if pendingRegions.length + (grouped.filter fun entry => !pendingRegions.contains entry.1).length > maxRegionalPendingBatches then
        .error (badRequest ("Maximum " ++ toString maxRegionalPendingBatches ++ " ta pending transfer batch bo‘lishi mumkin"))
      else (assignGroupsTo now (placeInRegion now input requestKey pending) grouped depot).map createdReply

def createReturnReplied (now : Nat) (input : ReturnInput) (depot : Depot) : Except RpcError (BatchReply × Depot) := do
  let requestKey ← normalizeTransferRequestKey input.requestKey
  let orderIds := input.orderIds.eraseDups
  if orderIds.isEmpty then .error (badRequest "order_ids is required")
  else if depot.alreadyRequested input.sourceBranchId requestKey then
    .ok (⟨true,depot.requestedBatches input.sourceBranchId requestKey⟩,depot)
  else
    let orders := depot.orders.select fun key row => orderIds.contains key && row.order.currentBatchId.isNone && live row.order
    let refused := (orders.filter fun entry => ineligibleReturn entry.2.order.status).map (·.1)
    if orders.length ≠ orderIds.length then
      .error (badRequest "Some orders are not found or already assigned to another batch")
    else if !refused.isEmpty then
      .error (badRequest ("Quyidagi buyurtmalar holati return paketiga mos emas (avval rollback qiling): " ++ idList refused))
    else if orders.any fun entry => resolveReturnDestination entry.2.order == some input.sourceBranchId then
      .error (badRequest ("Bu order allaqachon o'z (home) filialida — uni return paket bilan emas, " ++
        "to'g'ridan-to'g'ri market egasiga topshiring"))
    else match orders.find? fun entry => (resolveReturnDestination entry.2.order).isNone with
    | some (id,_) => .error (badRequest ("Order " ++ toString id ++ " has no home branch_id"))
    | none => (assignGroupsTo now (placeReturn now input requestKey) (groupBy resolveReturnDestination orders) depot).map createdReply

-- Without the reply they are the creations as they stand.
theorem assignGroupsTo_depot {place : Nat → Table OrderRow → Depot → Except RpcError (Nat × Depot)} (groups : List (Nat × Table OrderRow))
    (depot : Depot) : (assignGroupsTo now place groups depot).map (·.2) = assignGroups now place groups depot := by
  induction groups generalizing depot with
  | nil => rfl
  | cons group rest ih =>
    simp only [assignGroupsTo,assignGroups,bind,Except.bind]
    cases place group.1 group.2 depot with
    | error _ => rfl
    | ok placed =>
      dsimp only
      cases assignOrders now placed.1 group.2 placed.2 with
      | error _ => rfl
      | ok assigned =>
        dsimp only
        rw [←ih assigned]
        cases assignGroupsTo now place rest assigned with
        | error _ => rfl
        | ok _ => rfl
theorem created_depot {place : Nat → Table OrderRow → Depot → Except RpcError (Nat × Depot)} {groups : List (Nat × Table OrderRow)} :
    ((assignGroupsTo now place groups depot).map createdReply).map (·.2) = assignGroups now place groups depot := by
  rw [←assignGroupsTo_depot]
  cases assignGroupsTo now place groups depot with
  | error _ => rfl
  | ok _ => rfl
theorem createTransferReplied_depot (now : Nat) (input : TransferInput) (depot : Depot) :
    (createTransferReplied now input depot).map (·.2) = createBranchTransferBatches now input depot := by
  unfold createTransferReplied createBranchTransferBatches
  cases normalizeTransferRequestKey input.requestKey with
  | error _ => rfl
  | ok key =>
    simp only [bind,Except.bind]
    split
    · rfl
    split
    · rfl
    split
    · rfl
    split
    · rfl
    · exact created_depot
theorem createReturnReplied_depot (now : Nat) (input : ReturnInput) (depot : Depot) :
    (createReturnReplied now input depot).map (·.2) = createBranchReturnBatches now input depot := by
  unfold createReturnReplied createBranchReturnBatches
  cases normalizeTransferRequestKey input.requestKey with
  | error _ => rfl
  | ok key =>
    simp only [bind,Except.bind]
    split
    · rfl
    split
    · rfl
    split
    · rfl
    split
    · rfl
    split
    · rfl
    generalize List.find? (fun entry : Nat × OrderRow => (resolveReturnDestination entry.2.order).isNone) _ = found
    cases found with
    | some entry => rfl
    | none => exact created_depot

-- What a creation promises: every listed order is bound to one of the batches replied, and to no other place.
structure Completed (sourceBranchId : Nat) (direction : BatchDirection) (destination : Order → Option Nat) (ids : List Nat)
    (reply : BatchReply) (depot next : Depot) : Prop where
  bound : ∀ id ∈ ids,∃ batchId ∈ reply.batches,next.pointer id = some batchId ∧ (∃ item ∈ next.liveItems batchId,item.orderId = id) ∧
    ∃ batch row,next.batches.row batchId = some batch ∧ depot.orders.row id = some row ∧ batch.status = .pending ∧
      batch.sourceBranchId = sourceBranchId ∧ batch.direction = direction ∧
      destination row.order = some batch.destinationBranchId ∧ row.order.regionId = some batch.targetRegionId
  others : ∀ id,id ∉ ids → next.pointer id = depot.pointer id
-- And of its repetition, at any later time while the batches replied are not cancelled.
def Repeatable (create : Nat → Depot → Except RpcError (BatchReply × Depot)) (reply : BatchReply) (next : Depot) : Prop :=
  ∀ steps,(∀ batchId ∈ reply.batches,∀ batch,(haltAll next steps).batches.row batchId = some batch → batch.status ≠ .cancelled) →
    ∀ now,∃ answer,create now (haltAll next steps) = .ok (answer,haltAll next steps) ∧
      ∀ batchId,batchId ∈ answer.batches ↔ batchId ∈ reply.batches

section Requests
variable {depot next : Depot} {source id : Nat} {key : String} {old batch : Batch}

theorem answers_status (status : BatchStatus) : [.pending,.sent,.received].contains status = true ↔ status ≠ .cancelled := by
  cases status <;> decide
theorem requested_mem : batchId ∈ depot.requestedBatches source key ↔ ∃ batch,(batchId,batch) ∈ depot.batches ∧
    batch.sourceBranchId = source ∧ batch.requestKey = key ∧ batch.status ≠ .cancelled ∧ batch.isDeleted = false := by
  simp only [Depot.requestedBatches,List.mem_map,List.mem_mergeSort,Table.select,List.mem_filter,Bool.and_eq_true,beq_iff_eq,
    answers_status,Bool.not_eq_true',Prod.exists,and_assoc]
  constructor
  · rintro ⟨_,batch,listed,named,same,open_,kept,rfl⟩
    exact ⟨batch,listed,named,same,open_,kept⟩
  · rintro ⟨batch,listed,named,same,open_,kept⟩
    exact ⟨batchId,batch,listed,named,same,open_,kept,rfl⟩
theorem requested_some : depot.alreadyRequested source key = true ↔ ∃ batchId,batchId ∈ depot.requestedBatches source key := by
  simp only [requested_mem,Depot.alreadyRequested,List.any_eq_true,Bool.and_eq_true,beq_iff_eq,answers_status,Bool.not_eq_true',
    Prod.exists,and_assoc]

-- A batch that was there keeps its name, so that it answers a request only if it did before.
theorem named_kept (stocked : Stocked next) (renamed : Renamed depot next) (before : (id,old) ∈ depot.batches)
    (after : (id,batch) ∈ next.batches) :
    batch.sourceBranchId = old.sourceBranchId ∧ batch.requestKey = old.requestKey := by
  have first : batchName (id,old) ∈ next.names := renamed.later.subset (List.mem_map_of_mem before)
  obtain ⟨⟨id',found⟩,there,same⟩ := List.mem_map.mp first
  obtain rfl : id' = id := congrArg Prod.fst same
  obtain rfl : found = batch := Option.some.inj (((row_exact stocked.batchKeyed).mp there).symm.trans ((row_exact stocked.batchKeyed).mp after))
  exact ⟨congrArg (fun name => name.2.1) same,congrArg (fun name => name.2.2) same⟩
theorem requested_new (stocked : Stocked next) (renamed : Renamed depot next) (unanswered : depot.alreadyRequested source key = false)
    (before : depot.batches.row id = some old) (waiting : old.status = .pending) (kept : old.isDeleted = false)
    (batchKeyed : depot.batches.Keyed) : id ∉ next.requestedBatches source key := by
  intro answered
  obtain ⟨batch,after,named,same,-⟩ := requested_mem.mp answered
  have listed := (row_exact batchKeyed).mpr before
  obtain ⟨sourceSame,keySame⟩ := named_kept stocked renamed listed after
  have was : depot.alreadyRequested source key = true := requested_some.mpr
    ⟨id,requested_mem.mpr ⟨old,listed,sourceSame.symm.trans named,keySame.symm.trans same,by rw [waiting]; exact (nomatch ·),kept⟩⟩
  rw [unanswered] at was
  cases was
end Requests

-- The first group of a creation goes into a batch of its own when none of the batches touched was
-- there before; the request key then leaves no second group.
section Groups
variable {now source : Nat} {direction : BatchDirection} {key : String} {depot next : Depot}
  {place : Nat → Table OrderRow → Depot → Except RpcError (Nat × Depot)}

theorem assigned_row (assigned : assignOrders now batchId orders depot = .ok next) (id : Nat) :
    next.batches.row id = if batchId = id then (depot.batches.row id).map (countIn orders) else depot.batches.row id := by
  obtain ⟨-,-,rfl⟩ := assignOrders_parts assigned
  exact update_row batchId (countIn orders) depot.batches id
-- Batches stay, with their status.
structure StatusKept (before after : Depot) : Prop where
  rows : ∀ id batch,before.batches.row id = some batch → ∃ found,after.batches.row id = some found ∧ found.status = batch.status
  keyed : before.batches.Keyed → after.batches.Keyed
theorem StatusKept.refl (depot : Depot) : StatusKept depot depot := ⟨fun _ batch here => ⟨batch,here,rfl⟩,id⟩
theorem StatusKept.trans {first second third : Depot} (one : StatusKept first second) (two : StatusKept second third) :
    StatusKept first third := by
  refine ⟨fun id batch here => ?_,fun keyed => two.keyed (one.keyed keyed)⟩
  obtain ⟨middle,there,same⟩ := one.rows id batch here
  obtain ⟨found,last,again⟩ := two.rows id middle there
  exact ⟨found,last,again.trans same⟩
theorem assigned_status (assigned : assignOrders now batchId orders depot = .ok next) : StatusKept depot next := by
  refine ⟨fun id batch here => ?_,fun keyed => ?_⟩
  · rw [assigned_row assigned,here]
    split
    · exact ⟨_,rfl,rfl⟩
    · exact ⟨_,rfl,rfl⟩
  · obtain ⟨-,-,rfl⟩ := assignOrders_parts assigned
    exact apply_keyed _ keyed
theorem inserted_status (below : ∀ id,depot.batches.row id ≠ none → id < depot.nextBatchId) (batch : Batch) :
    StatusKept depot (depot.insertBatch batch) := by
  refine ⟨fun id old here => ?_,fun keyed => put_keyed keyed _ _⟩
  rw [insertBatch_row,if_neg (Nat.ne_of_gt (below id (by rw [here]; exact (nomatch ·))))]
  exact ⟨old,here,rfl⟩
-- A place is a pending batch found, or a new one of the group's destination.
def FindsOrMakes (now source : Nat) (direction : BatchDirection) (key : String) (destination : Nat → Nat) (depot : Depot)
    (place : Nat → Table OrderRow → Depot → Except RpcError (Nat × Depot)) : Prop :=
  ∀ group orders current placed,StatusKept depot current → place group orders current = .ok placed →
    (∃ batch,placed.2 = current ∧ current.batches.row placed.1 = some batch ∧ batch.status = .pending ∧
      (depot.batches.row placed.1 ≠ none ∨ destination = id ∧ batch.destinationBranchId = group)) ∨
    ∃ region,saveNewBatch (newBatch now source (destination group) direction region key) current = .ok placed
theorem one_group {destination : Nat → Nat} (filed : Filed depot) (places : FindsOrMakes now source direction key destination depot place)
    {group : Nat} {orders : Table OrderRow} {rest : List (Nat × Table OrderRow)} (distinct : (group :: rest.map (·.1)).Nodup)
    (assigned : assignGroupsTo now place ((group,orders) :: rest) depot = .ok (touched,next))
    (fresh : ∀ batchId ∈ touched,depot.batches.row batchId = none) :
    rest = [] ∧ touched = [depot.nextBatchId] ∧ ∃ region,
      place group orders depot =
        .ok (depot.nextBatchId,depot.insertBatch (newBatch now source (destination group) direction region key)) ∧
      assignOrders now depot.nextBatchId orders (depot.insertBatch (newBatch now source (destination group) direction region key)) =
        .ok next := by
  obtain ⟨placed,found,assigned⟩ := error_bind_parts assigned
  obtain ⟨middle,assigns,assigned⟩ := error_bind_parts assigned
  obtain ⟨done,more,result⟩ := error_bind_parts assigned
  cases result
  rcases places _ _ _ _ (StatusKept.refl depot) found with ⟨batch,-,there,-⟩ | ⟨region,saved⟩
  · cases there.symm.trans (fresh placed.1 List.mem_cons_self)
  obtain ⟨rfl,free⟩ := saveNewBatch_parts saved
  have inserted : Renamed depot (depot.insertBatch (newBatch now source (destination group) direction region key)) :=
    filed.renamed.insert free
  have still : Renamed (depot.insertBatch (newBatch now source (destination group) direction region key)) middle :=
    Renamed.assigned ⟨List.prefix_rfl,inserted.once,inserted.below⟩ assigns
  cases rest with
  | nil =>
    cases more
    exact ⟨rfl,rfl,region,found,assigns⟩
  | cons second rest =>
    exfalso
    obtain ⟨placed,foundNext,more⟩ := error_bind_parts more
    obtain ⟨later,assignsNext,more⟩ := error_bind_parts more
    obtain ⟨others,-,result⟩ := error_bind_parts more
    cases result
    have absent : depot.batches.row placed.1 = none := fresh placed.1 (by simp)
    have keeps : StatusKept depot middle := (inserted_status filed.stocked.below _).trans (assigned_status assigns)
    rcases places _ _ _ _ keeps foundNext with ⟨batch,-,there,-,before | ⟨byGroup,here⟩⟩ | ⟨_,savedNext⟩
    · exact before absent
    · -- the batch found is the one just made, and that is another group's
      rw [assigned_row assigns,insertBatch_row,absent] at there
      by_cases same : depot.nextBatchId = placed.1
      · rw [if_pos same,if_pos same] at there
        cases there
        rw [byGroup] at here
        exact (List.nodup_cons.mp distinct).1 (List.mem_cons.mpr (.inl here))
      · rw [if_neg same,if_neg same] at there
        cases there
    · obtain ⟨-,freeNext⟩ := saveNewBatch_parts savedNext
      have taken : middle.keyTaken source key = true := by
        refine (keyTaken_exact middle source key).mpr ((still.later.map _).subset ?_)
        rw [insertBatch_names depot filed.stocked.below,List.map_append]
        exact List.mem_append_right _ (List.mem_singleton_self _)
      exact absurd taken (by simpa [newBatch] using freeNext)
theorem touched_pending {destination : Nat → Nat} (places : FindsOrMakes now source direction key destination depot place)
    (groups : List (Nat × Table OrderRow)) : ∀ {current : Depot} {touched : List Nat},StatusKept depot current → Renamed depot current →
      assignGroupsTo now place groups current = .ok (touched,next) → StatusKept current next ∧ Renamed depot next ∧
        ∀ batchId ∈ touched,∃ batch,next.batches.row batchId = some batch ∧ batch.status = .pending := by
  induction groups with
  | nil =>
    intro current touched kept renamed done
    cases done
    exact ⟨StatusKept.refl _,renamed,fun _ member => nomatch member⟩
  | cons entry rest ih =>
    intro current touched kept renamed done
    obtain ⟨placed,found,done⟩ := error_bind_parts done
    obtain ⟨assigned,assigns,done⟩ := error_bind_parts done
    obtain ⟨more,later,result⟩ := error_bind_parts done
    cases result
    have placing : StatusKept current placed.2 ∧ Renamed depot placed.2 ∧
        ∃ batch,placed.2.batches.row placed.1 = some batch ∧ batch.status = .pending := by
      rcases places _ _ _ _ kept found with ⟨batch,same,here,waiting,-⟩ | ⟨region,saved⟩
      · rw [same]
        exact ⟨StatusKept.refl _,renamed,batch,here,waiting⟩
      · obtain ⟨rfl,free⟩ := saveNewBatch_parts saved
        exact ⟨inserted_status renamed.below _,renamed.insert free,_,by rw [insertBatch_row,if_pos rfl],rfl⟩
    obtain ⟨stays,named,batch,here,waiting⟩ := placing
    have onward := stays.trans (assigned_status assigns)
    obtain ⟨rest,renamedNext,pending⟩ := ih (kept.trans onward) (named.assigned assigns) later
    refine ⟨onward.trans rest,renamedNext,fun batchId member => ?_⟩
    rcases List.mem_cons.mp member with rfl | inside
    · obtain ⟨found,there,same⟩ := ((assigned_status assigns).trans rest).rows _ batch here
      exact ⟨found,there,same.trans waiting⟩
    · exact pending batchId inside
end Groups

-- One region, one destination, and no batch already waiting there.
def OneTarget (sourceBranchId : Nat) (direction : BatchDirection) (destination : Order → Option Nat) (ids : List Nat) (depot : Depot) : Prop :=
  ∃ destinationBranchId regionId,
    (∀ id ∈ ids,∀ row,depot.orders.row id = some row →
      destination row.order = some destinationBranchId ∧ row.order.regionId = some regionId) ∧
    ∀ batchId batch,depot.batches.row batchId = some batch → batch.sourceBranchId = sourceBranchId → batch.direction = direction →
      batch.destinationBranchId = destinationBranchId → batch.targetRegionId = regionId → batch.status ≠ .pending

-- A creation that put the listed orders into one new batch, to the end and in every repetition.
section Settled
variable {now source destinationBranchId region : Nat} {direction : BatchDirection} {key : String} {depot next : Depot}
  {orders : Table OrderRow} {destination : Order → Option Nat} {ids : List Nat}

def madeBatch (now source destinationBranchId : Nat) (direction : BatchDirection) (region : Nat) (key : String) (orders : Table OrderRow) :
    Batch := countIn orders (newBatch now source destinationBranchId direction region key)
theorem made_row (assigned : assignOrders now depot.nextBatchId orders
    (depot.insertBatch (newBatch now source destinationBranchId direction region key)) = .ok next) :
    next.batches.row depot.nextBatchId = some (madeBatch now source destinationBranchId direction region key orders) := by
  rw [assigned_row assigned,if_pos rfl,insertBatch_row,if_pos rfl]
  rfl
theorem made_completed (stocked : Stocked depot) (keys : ∀ id,id ∈ orders.map (·.1) ↔ id ∈ ids)
    (assigned : assignOrders now depot.nextBatchId orders
      (depot.insertBatch (newBatch now source destinationBranchId direction region key)) = .ok next)
    (each : ∀ id ∈ ids,∀ row,depot.orders.row id = some row →
      destination row.order = some destinationBranchId ∧ row.order.regionId = some region) :
    Completed source direction destination ids ⟨false,[depot.nextBatchId]⟩ depot next := by
  have made := made_row assigned
  obtain ⟨all,-,rfl⟩ := assignOrders_parts assigned
  have pointers := assigned_pointer now depot.nextBatchId stocked.keyed all
  have bound := affected_all stocked.keyed all
  refine ⟨fun id member => ?_,fun id apart => ?_⟩
  · have listed := (keys id).mpr member
    obtain ⟨row,here,-,-⟩ := bound id listed
    obtain ⟨entry,inside,same⟩ := List.mem_map.mp listed
    obtain ⟨home,zone⟩ := each id member row here
    refine ⟨depot.nextBatchId,List.mem_singleton_self _,?_,⟨itemOf depot.nextBatchId entry,?_,same⟩,_,row,made,here,rfl,rfl,rfl,home,zone⟩
    · refine (pointers id).trans ?_
      exact if_pos listed
    · exact mem_liveItems.mpr ⟨List.mem_append_right _ (List.mem_map_of_mem inside),rfl,rfl⟩
  · refine (pointers id).trans (if_neg fun member => apart ((keys id).mp member))
-- The key names the new batch alone, whatever happens later.
theorem made_requested {later : Depot} (filed : Filed later) (renamed : Renamed next later)
    (listed : (batchId,made) ∈ next.batches) (source_ : made.sourceBranchId = source) (key_ : made.requestKey = key)
    (kept : ∀ batch,later.batches.row batchId = some batch → batch.status ≠ .cancelled) (other : Nat) :
    other ∈ later.requestedBatches source key ↔ other = batchId := by
  have inside : batchName (batchId,made) ∈ later.names := renamed.later.subset (List.mem_map_of_mem listed)
  obtain ⟨⟨id,found⟩,there,same⟩ := List.mem_map.mp inside
  obtain rfl : id = batchId := congrArg Prod.fst same
  have names : (found.sourceBranchId,found.requestKey) = (source,key) := by
    rw [←source_,←key_]
    exact congrArg Prod.snd same
  have row := (row_exact filed.stocked.batchKeyed).mp there
  rw [requested_mem]
  constructor
  · rintro ⟨batch,listed,named,same',-⟩
    have first : batchName (other,batch) ∈ later.names := List.mem_map_of_mem listed
    have second : batchName (id,found) ∈ later.names := List.mem_map_of_mem there
    have equal : batchName (other,batch) = batchName (id,found) := List.inj_on_of_nodup_map filed.once first second (by
      change (batch.sourceBranchId,batch.requestKey) = (found.sourceBranchId,found.requestKey)
      rw [names,named,same'])
    exact congrArg Prod.fst equal
  · rintro rfl
    exact ⟨found,there,congrArg Prod.fst names,congrArg Prod.snd names,kept found row,filed.stocked.kept _ found row⟩
theorem made_repeatable {create : Nat → Depot → Except RpcError (BatchReply × Depot)} (filed : Filed next)
    (stored : next.batches.row batchId = some made) (source_ : made.sourceBranchId = source) (key_ : made.requestKey = key)
    (answers : ∀ now later,later.alreadyRequested source key = true →
      create now later = .ok (⟨true,later.requestedBatches source key⟩,later)) :
    Repeatable create ⟨false,[batchId]⟩ next := by
  intro steps kept now
  have renamed : Renamed next (haltAll next steps) := halt_renamed steps filed.renamed
  have later : Filed (haltAll next steps) := ⟨halt_stocked steps filed.stocked,renamed.once⟩
  have requested := made_requested later renamed ((row_exact filed.stocked.batchKeyed).mpr stored) source_ key_
    (fun batch here => kept batchId (List.mem_singleton_self _) batch here)
  refine ⟨_,answers now _ (requested_some.mpr ⟨batchId,(requested batchId).mpr rfl⟩),fun other => ?_⟩
  rw [requested other,List.mem_singleton]
end Settled

-- Conversely, what a complete and repeatable creation tells.
section Told
variable {now source : Nat} {direction : BatchDirection} {key : String} {depot next : Depot} {reply : BatchReply}
  {place : Nat → Table OrderRow → Depot → Except RpcError (Nat × Depot)} {create : Nat → Depot → Except RpcError (BatchReply × Depot)}
  {destination : Order → Option Nat} {ids : List Nat} {groups : List (Nat × Table OrderRow)} {home : Nat → Nat}

theorem repeatable_fresh (filed : Filed depot) (stocked : Stocked next) (places : FindsOrMakes now source direction key home depot place)
    (assigned : assignGroupsTo now place groups depot = .ok (touched,next)) (unanswered : depot.alreadyRequested source key = false)
    (answers : next.alreadyRequested source key = true → create now next = .ok (⟨true,next.requestedBatches source key⟩,next))
    (refuses : (∀ id ∈ ids,next.pointer id ≠ none) → next.alreadyRequested source key = false →
      ∃ refused,create now next = .error refused)
    (completed : Completed source direction destination ids ⟨false,touched.eraseDups⟩ depot next)
    (repeatable : Repeatable create ⟨false,touched.eraseDups⟩ next) : ∀ batchId ∈ touched,depot.batches.row batchId = none := by
  obtain ⟨kept,renamed,pending⟩ := touched_pending places groups (StatusKept.refl depot) filed.renamed assigned
  obtain ⟨answer,done,same⟩ := repeatable [] (by
    intro batchId member batch here
    obtain ⟨found,there,waiting⟩ := pending batchId (List.mem_eraseDups.mp member)
    cases here.symm.trans there
    rw [waiting]
    exact (nomatch ·)) now
  change create now next = .ok (answer,next) at done
  cases requested : next.alreadyRequested source key with
  | false =>
    obtain ⟨refused,fails⟩ := refuses (by
      intro id member
      obtain ⟨_,-,points,-⟩ := completed.bound id member
      rw [points]
      exact (nomatch ·)) requested
    rw [fails] at done
    cases done
  | true =>
    rw [answers requested] at done
    cases done
    intro batchId member
    by_contra present
    obtain ⟨old,before⟩ := Option.ne_none_iff_exists'.mp present
    obtain ⟨found,there,same'⟩ := kept.rows batchId old before
    obtain ⟨batch,here,waiting⟩ := pending batchId member
    cases there.symm.trans here
    exact requested_new stocked renamed unanswered before (same'.symm.trans waiting) (filed.stocked.kept batchId old before)
      filed.stocked.batchKeyed ((same batchId).mpr (List.mem_eraseDups.mpr member))
end Told

section Groupings
variable {group : Order → Option Nat} {orders : Table OrderRow}

theorem groupBy_distinct (group : Order → Option Nat) (orders : Table OrderRow) : ((groupBy group orders).map (·.1)).Nodup := by
  rw [groupBy,List.map_map]
  exact (List.map_id _).symm ▸ eraseDups_nodup _
theorem groupBy_one {value : Nat} (filled : orders ≠ []) (each : ∀ entry ∈ orders,group entry.2.order = some value) :
    groupBy group orders = [(value,orders)] := by
  have values : (orders.filterMap fun entry => group entry.2.order).eraseDups = [value] := by
    refine List.perm_singleton.mp ((List.perm_ext_iff_of_nodup (eraseDups_nodup _) (List.nodup_singleton _)).mpr fun other => ?_)
    rw [List.mem_eraseDups,List.mem_filterMap,List.mem_singleton]
    constructor
    · rintro ⟨entry,member,same⟩
      exact Option.some.inj (same.symm.trans (each entry member))
    · rintro rfl
      obtain ⟨entry,member⟩ := List.exists_mem_of_ne_nil _ filled
      exact ⟨entry,member,each entry member⟩
  have whole : orders.filter (fun entry => group entry.2.order == some value) = orders :=
    List.filter_eq_self.mpr fun entry member => beq_iff_eq.mpr (each entry member)
  rw [groupBy,values,List.map_singleton,whole]
-- As many orders found as were listed are the orders listed.
theorem found_all {ids : List Nat} (keyed : orders.Keyed) (inside : ∀ id ∈ orders.map (·.1),id ∈ ids)
    (long : orders.length = ids.length) (id : Nat) : id ∈ orders.map (·.1) ↔ id ∈ ids :=
  (((List.subperm_of_subset keyed inside).perm_of_length_le (by rw [List.length_map,long])).mem_iff)
end Groupings

-- The pending batches read by the creations.
theorem pending_mem {source destination : Nat} {direction : BatchDirection} (stocked : Stocked depot)
    (stored : depot.batches.row batchId = some batch) (from_ : batch.sourceBranchId = source) (to_ : batch.destinationBranchId = destination)
    (way : batch.direction = direction) (waiting : batch.status = .pending) :
    (batchId,batch) ∈ depot.pendingBatches source destination direction := by
  refine List.mem_filter.mpr ⟨(row_exact stocked.batchKeyed).mpr stored,?_⟩
  simp [from_,to_,way,waiting,stocked.kept batchId batch stored]
theorem pending_row {source destination : Nat} {direction : BatchDirection} {entry : Nat × Batch} (stocked : Stocked depot)
    (member : entry ∈ depot.pendingBatches source destination direction) : depot.batches.row entry.1 = some entry.2 ∧
      entry.2.sourceBranchId = source ∧ entry.2.destinationBranchId = destination ∧ entry.2.direction = direction ∧
        entry.2.status = .pending := by
  obtain ⟨stored,chosen⟩ := select_row stocked.batchKeyed member
  simp only [Bool.and_eq_true,beq_iff_eq] at chosen
  exact ⟨stored,chosen.1.1.1.1,chosen.1.1.1.2,chosen.1.1.2,chosen.1.2⟩
theorem insertBatch_inj {depot : Depot} {batch other : Batch} (same : depot.insertBatch batch = depot.insertBatch other) : batch = other := by
  have rows := congrArg (fun next : Depot => next.batches.row depot.nextBatchId) same
  simpa [insertBatch_row] using rows

section Transfers
variable {now : Nat} {input : TransferInput} {depot next : Depot} {reply : BatchReply} {key : String}

theorem placeInRegion_finds {pending : Table Batch} (keyed : depot.batches.Keyed)
    (each : ∀ entry ∈ pending,entry ∈ depot.pendingBatches input.sourceBranchId input.destinationBranchId input.direction) :
    FindsOrMakes now input.sourceBranchId input.direction key (fun _ => input.destinationBranchId) depot
      (placeInRegion now input key pending) := by
  intro region orders current placed kept found
  unfold placeInRegion at found
  split at found
  · rename_i batchId batch first
    cases found
    have listed := each _ (List.mem_of_find?_eq_some first)
    obtain ⟨stored,chosen⟩ : depot.batches.row batchId = some batch ∧ _ := select_row keyed listed
    simp only [Bool.and_eq_true,beq_iff_eq] at chosen
    obtain ⟨after,there,same⟩ := kept.rows batchId batch stored
    exact .inl ⟨after,rfl,there,same.trans chosen.1.2,.inl (by rw [stored]; exact (nomatch ·))⟩
  · exact .inr ⟨region,found⟩

theorem placeInRegion_made {pending : Table Batch} (stocked : Stocked depot)
    (each : ∀ entry ∈ pending,entry ∈ depot.pendingBatches input.sourceBranchId input.destinationBranchId input.direction)
    (placed : placeInRegion now input key pending group part depot = .ok (depot.nextBatchId,depot.insertBatch
      (newBatch now input.sourceBranchId input.destinationBranchId input.direction region key))) :
    (∀ entry ∈ pending,entry.2.targetRegionId ≠ group) ∧ region = group := by
  unfold placeInRegion at placed
  split at placed
  · rename_i batchId batch first
    have stored := (pending_row stocked (each _ (List.mem_of_find?_eq_some first))).1
    have same : batchId = depot.nextBatchId := congrArg Prod.fst (Except.ok.inj placed)
    exact absurd (stocked.below batchId (by rw [stored]; exact (nomatch ·))) (by omega)
  · rename_i none
    obtain ⟨same,-⟩ := saveNewBatch_parts placed
    refine ⟨fun entry member zone => List.find?_eq_none.mp none entry member (beq_iff_eq.mpr zone),?_⟩
    exact congrArg (·.targetRegionId) (insertBatch_inj (congrArg Prod.snd same))

theorem transferReplied_parts (stocked : Stocked depot) (done : createTransferReplied now input depot = .ok (reply,next))
    (fresh : reply.idempotent = false) (listed : input.orderIds ≠ []) :
    ∃ key orders touched pending,normalizeTransferRequestKey input.requestKey = .ok key ∧
      depot.alreadyRequested input.sourceBranchId key = false ∧ (∀ id,id ∈ orders.map (·.1) ↔ id ∈ input.orderIds) ∧
      (∀ entry ∈ orders,depot.orders.row entry.1 = some entry.2) ∧
      (∀ entry,entry ∈ pending ↔ entry ∈ depot.pendingBatches input.sourceBranchId input.destinationBranchId input.direction) ∧
      assignGroupsTo now (placeInRegion now input key pending) (groupBy (·.regionId) orders) depot = .ok (touched,next) ∧
      reply = ⟨false,touched.eraseDups⟩ ∧ groupBy (·.regionId) orders ≠ [] := by
  obtain ⟨key,named,rest⟩ := error_bind_parts done
  split at rest
  · cases rest
    cases fresh
  rename_i unanswered
  dsimp only at rest
  split at rest
  · cases rest
  rename_i complete
  split at rest
  · cases rest
  rename_i some_
  split at rest
  · cases rest
  cases assigned : assignGroupsTo now (placeInRegion now input key ((depot.pendingBatches input.sourceBranchId input.destinationBranchId
      input.direction).mergeSort fun left right => left.2.createdAt ≤ right.2.createdAt)) (groupBy (·.regionId) (byCreation
      (depot.orders.select (unassignedNew input.sourceBranchId input.orderIds.eraseDups)))) depot with
  | error _ => rw [assigned] at rest; cases rest
  | ok result =>
    rw [assigned] at rest
    cases rest
    have filled := eraseDups_filled listed
    have long : (byCreation (depot.orders.select (unassignedNew input.sourceBranchId input.orderIds.eraseDups))).length =
        input.orderIds.eraseDups.length := by
      simpa [filled] using complete
    have chosen : ∀ entry ∈ byCreation (depot.orders.select (unassignedNew input.sourceBranchId input.orderIds.eraseDups)),
        depot.orders.row entry.1 = some entry.2 ∧ unassignedNew input.sourceBranchId input.orderIds.eraseDups entry.1 entry.2 = true :=
      fun entry member => select_row stocked.keyed (List.mem_mergeSort.mp member)
    refine ⟨key,_,result.1,_,named,Bool.eq_false_iff.mpr unanswered,fun id => ?_,fun entry member => (chosen entry member).1,
      fun entry => List.mem_mergeSort,assigned,rfl,by simpa using some_⟩
    refine Iff.trans ?_ List.mem_eraseDups
    refine found_all (((List.mergeSort_perm _ _).map _).nodup_iff.mpr (select_keyed stocked.keyed _)) (fun id member => ?_) long id
    obtain ⟨entry,inside,rfl⟩ := List.mem_map.mp member
    have condition := (chosen entry inside).2
    simp only [unassignedNew,Bool.and_eq_true,Bool.or_eq_true,List.isEmpty_iff,filled,false_or,List.contains_iff_mem] at condition
    exact condition.2
theorem transfer_answers (named : normalizeTransferRequestKey input.requestKey = .ok key) (now : Nat) (later : Depot)
    (requested : later.alreadyRequested input.sourceBranchId key = true) :
    createTransferReplied now input later = .ok (⟨true,later.requestedBatches input.sourceBranchId key⟩,later) := by
  unfold createTransferReplied
  rw [named]
  exact if_pos requested
theorem transfer_refuses (named : normalizeTransferRequestKey input.requestKey = .ok key) (listed : input.orderIds ≠ []) (now : Nat)
    (later : Depot) (keyed : later.orders.Keyed) (bound : ∀ id ∈ input.orderIds,later.pointer id ≠ none)
    (unanswered : later.alreadyRequested input.sourceBranchId key = false) :
    ∃ refused,createTransferReplied now input later = .error refused := by
  have none : later.orders.select (unassignedNew input.sourceBranchId input.orderIds.eraseDups) = [] := by
    refine List.filter_eq_nil_iff.mpr fun entry member chosen => ?_
    have filled := eraseDups_filled listed
    simp only [unassignedNew,Bool.and_eq_true,Option.isNone_iff_eq_none,Bool.or_eq_true,List.isEmpty_iff,filled,false_or,
      List.contains_iff_mem,List.mem_eraseDups] at chosen
    refine bound entry.1 chosen.2 ?_
    rw [Depot.pointer,(row_exact keyed).mp member]
    exact chosen.1.1.1.2
  refine ⟨badRequest "Some orders are not found, not NEW, or already assigned to another batch",?_⟩
  unfold createTransferReplied
  rw [named]
  refine (if_neg (by simp [unanswered])).trans (if_pos ?_)
  simpa [none,byCreation] using ⟨eraseDups_filled listed,fun none => eraseDups_filled listed (List.length_eq_zero_iff.mp none.symm)⟩

theorem transfer_replay (filed : Filed depot) (done : createTransferReplied now input depot = .ok (reply,next))
    (fresh : reply.idempotent = false) (listed : input.orderIds ≠ []) :
    Completed input.sourceBranchId input.direction (fun _ => some input.destinationBranchId) input.orderIds reply depot next ∧
        Repeatable (fun now => createTransferReplied now input) reply next ↔
      OneTarget input.sourceBranchId input.direction (fun _ => some input.destinationBranchId) input.orderIds depot := by
  obtain ⟨key,orders,touched,pending,named,unanswered,keys,rows,waiting,assigned,rfl,some_⟩ :=
    transferReplied_parts filed.stocked done fresh listed
  have created : createBranchTransferBatches now input depot = .ok next := by
    rw [←createTransferReplied_depot,done]
    rfl
  have nextFiled : Filed next := ⟨(createTransfer_stocked filed.stocked created).1,(createTransfer_renamed filed.renamed created).once⟩
  have finds : FindsOrMakes now input.sourceBranchId input.direction key (fun _ => input.destinationBranchId) depot
      (placeInRegion now input key pending) := placeInRegion_finds filed.stocked.batchKeyed fun entry member => (waiting entry).mp member
  constructor
  · rintro ⟨completed,repeatable⟩
    have untouched := repeatable_fresh filed nextFiled.stocked finds assigned unanswered (transfer_answers named now next)
      (transfer_refuses named listed now next nextFiled.stocked.keyed) completed repeatable
    obtain ⟨⟨group,part⟩,rest,shape⟩ := List.exists_cons_of_ne_nil some_
    have distinct := groupBy_distinct (·.regionId) orders
    rw [shape] at assigned distinct
    obtain ⟨rfl,rfl,region,placed,assigns⟩ := one_group filed finds distinct assigned untouched
    have made := made_row assigns
    refine ⟨input.destinationBranchId,region,fun id member row here => ⟨rfl,?_⟩,?_⟩
    · obtain ⟨batchId,inside,-,-,batch,row',stored,here',-,-,-,-,zone⟩ := completed.bound id member
      cases here.symm.trans here'
      obtain rfl : batchId = depot.nextBatchId := by simpa using inside
      cases stored.symm.trans made
      exact zone
    · intro batchId batch stored source direction destination zone pendingStatus
      obtain ⟨free,same⟩ := placeInRegion_made filed.stocked (fun entry member => (waiting entry).mp member) placed
      refine free (batchId,batch) ((waiting _).mpr (pending_mem filed.stocked stored source destination direction pendingStatus)) ?_
      rw [zone,same]
  · rintro ⟨destination,region,each,none⟩
    have filled : orders ≠ [] := by
      rintro rfl
      exact some_ rfl
    have groups : groupBy (·.regionId) orders = [(region,orders)] := groupBy_one filled fun entry member =>
      (each entry.1 ((keys entry.1).mp (List.mem_map_of_mem member)) entry.2 (rows entry member)).2
    obtain ⟨entry,first⟩ := List.exists_mem_of_ne_nil _ filled
    have home : input.destinationBranchId = destination := Option.some.inj
      (each entry.1 ((keys entry.1).mp (List.mem_map_of_mem first)) entry.2 (rows entry first)).1
    have lone : pending.find? (fun entry => entry.2.targetRegionId == region) = Option.none := by
      refine List.find?_eq_none.mpr fun entry member zone => ?_
      obtain ⟨stored,chosen⟩ := pending_row filed.stocked ((waiting entry).mp member)
      exact none entry.1 entry.2 stored chosen.1 chosen.2.2.1 (chosen.2.1.trans home) (beq_iff_eq.mp zone) chosen.2.2.2
    rw [groups] at assigned
    obtain ⟨placed,places,assigned⟩ := error_bind_parts assigned
    obtain ⟨final,assigns,assigned⟩ := error_bind_parts assigned
    cases assigned
    simp only [placeInRegion,lone] at places
    obtain ⟨rfl,-⟩ := saveNewBatch_parts places
    have single : ([depot.nextBatchId] : List Nat).eraseDups = [depot.nextBatchId] := rfl
    refine ⟨made_completed filed.stocked keys assigns fun id member row here => ?_,?_⟩
    · exact ⟨rfl,(each id member row here).2⟩
    · exact made_repeatable nextFiled (made_row assigns) rfl rfl fun now later => transfer_answers named now later
end Transfers

section Returns
variable {now : Nat} {input : ReturnInput} {depot next : Depot} {reply : BatchReply} {key : String}

theorem placeReturn_finds (keyed : depot.batches.Keyed) :
    FindsOrMakes now input.sourceBranchId .back key id depot (placeReturn now input key) := by
  intro destination orders current placed kept found
  unfold placeReturn at found
  split at found
  · cases found
  rename_i region _
  dsimp only at found
  split at found
  · rename_i batchId batch first
    cases found
    obtain ⟨stored,chosen⟩ : current.batches.row batchId = some batch ∧ _ :=
      select_row (kept.keyed keyed) (List.mem_mergeSort.mp (List.mem_of_find?_eq_some first))
    simp only [Bool.and_eq_true,beq_iff_eq] at chosen
    exact .inl ⟨batch,rfl,stored,chosen.1.2,.inr ⟨rfl,chosen.1.1.1.2⟩⟩
  · exact .inr ⟨region,found⟩
theorem placeReturn_made (stocked : Stocked depot) (placed : placeReturn now input key destination part depot = .ok (depot.nextBatchId,
    depot.insertBatch (newBatch now input.sourceBranchId destination .back region key))) :
    ∀ entry ∈ depot.pendingBatches input.sourceBranchId destination .back,entry.2.targetRegionId ≠ region := by
  unfold placeReturn at placed
  split at placed
  · cases placed
  dsimp only at placed
  split at placed
  · rename_i batchId batch first
    have stored := (pending_row stocked (List.mem_mergeSort.mp (List.mem_of_find?_eq_some first))).1
    have same : batchId = depot.nextBatchId := congrArg Prod.fst (Except.ok.inj placed)
    exact absurd (stocked.below batchId (by rw [stored]; exact (nomatch ·))) (by omega)
  · rename_i none
    obtain ⟨same,-⟩ := saveNewBatch_parts placed
    have region_ := congrArg (·.targetRegionId) (insertBatch_inj (congrArg Prod.snd same))
    intro entry member zone
    exact List.find?_eq_none.mp none entry (List.mem_mergeSort.mpr member) (beq_iff_eq.mpr (zone.trans region_))

theorem returnReplied_parts (stocked : Stocked depot) (done : createReturnReplied now input depot = .ok (reply,next))
    (fresh : reply.idempotent = false) :
    ∃ key orders touched,normalizeTransferRequestKey input.requestKey = .ok key ∧ input.orderIds ≠ [] ∧
      depot.alreadyRequested input.sourceBranchId key = false ∧ (∀ id,id ∈ orders.map (·.1) ↔ id ∈ input.orderIds) ∧
      (∀ entry ∈ orders,depot.orders.row entry.1 = some entry.2 ∧ resolveReturnDestination entry.2.order ≠ none) ∧
      assignGroupsTo now (placeReturn now input key) (groupBy resolveReturnDestination orders) depot = .ok (touched,next) ∧
      reply = ⟨false,touched.eraseDups⟩ := by
  obtain ⟨key,named,rest⟩ := error_bind_parts done
  dsimp only at rest
  split at rest
  · cases rest
  rename_i filled
  have filled : input.orderIds.eraseDups ≠ [] := by simpa using filled
  split at rest
  · cases rest
    cases fresh
  rename_i unanswered
  split at rest
  · cases rest
  rename_i complete
  split at rest
  · cases rest
  split at rest
  · cases rest
  split at rest
  · cases rest
  rename_i homes
  cases assigned : assignGroupsTo now (placeReturn now input key) (groupBy resolveReturnDestination (depot.orders.select fun key row =>
      input.orderIds.eraseDups.contains key && row.order.currentBatchId.isNone && live row.order)) depot with
  | error _ => rw [assigned] at rest; cases rest
  | ok result =>
    rw [assigned] at rest
    cases rest
    have chosen : ∀ entry ∈ depot.orders.select (fun key row =>
        input.orderIds.eraseDups.contains key && row.order.currentBatchId.isNone && live row.order),
        depot.orders.row entry.1 = some entry.2 ∧
          (input.orderIds.eraseDups.contains entry.1 && entry.2.order.currentBatchId.isNone && live entry.2.order) = true :=
      fun entry member => select_row stocked.keyed member
    refine ⟨key,_,result.1,named,?_,Bool.eq_false_iff.mpr unanswered,fun id => ?_,fun entry member => ⟨(chosen entry member).1,?_⟩,
      assigned,rfl⟩
    · rintro empty
      rw [empty] at filled
      exact filled rfl
    · refine Iff.trans ?_ List.mem_eraseDups
      refine found_all (select_keyed stocked.keyed _) (fun id member => ?_) (not_not.mp complete) id
      obtain ⟨entry,inside,rfl⟩ := List.mem_map.mp member
      have condition := (chosen entry inside).2
      simp only [Bool.and_eq_true,List.contains_iff_mem] at condition
      exact condition.1.1
    · have home := List.find?_eq_none.mp homes entry member
      simpa using home
theorem return_answers (named : normalizeTransferRequestKey input.requestKey = .ok key) (filled : input.orderIds ≠ []) (now : Nat)
    (later : Depot) (requested : later.alreadyRequested input.sourceBranchId key = true) :
    createReturnReplied now input later = .ok (⟨true,later.requestedBatches input.sourceBranchId key⟩,later) := by
  unfold createReturnReplied
  rw [named]
  exact (if_neg (by simpa using eraseDups_filled filled)).trans (if_pos requested)
theorem return_refuses (named : normalizeTransferRequestKey input.requestKey = .ok key) (filled : input.orderIds ≠ []) (now : Nat)
    (later : Depot) (keyed : later.orders.Keyed) (bound : ∀ id ∈ input.orderIds,later.pointer id ≠ none)
    (unanswered : later.alreadyRequested input.sourceBranchId key = false) :
    ∃ refused,createReturnReplied now input later = .error refused := by
  have none : later.orders.select (fun key row =>
      input.orderIds.eraseDups.contains key && row.order.currentBatchId.isNone && live row.order) = [] := by
    refine List.filter_eq_nil_iff.mpr fun entry member chosen => ?_
    simp only [Bool.and_eq_true,Option.isNone_iff_eq_none,List.contains_iff_mem,List.mem_eraseDups] at chosen
    refine bound entry.1 chosen.1.1 ?_
    rw [Depot.pointer,(row_exact keyed).mp member]
    exact chosen.1.2
  refine ⟨badRequest "Some orders are not found or already assigned to another batch",?_⟩
  unfold createReturnReplied
  rw [named]
  refine (if_neg (by simpa using eraseDups_filled filled)).trans ((if_neg (by simp [unanswered])).trans (if_pos ?_))
  rw [none]
  exact fun same => eraseDups_filled filled (List.length_eq_zero_iff.mp same.symm)

theorem return_replay (filed : Filed depot) (done : createReturnReplied now input depot = .ok (reply,next))
    (fresh : reply.idempotent = false) :
    Completed input.sourceBranchId .back resolveReturnDestination input.orderIds reply depot next ∧
        Repeatable (fun now => createReturnReplied now input) reply next ↔
      OneTarget input.sourceBranchId .back resolveReturnDestination input.orderIds depot := by
  obtain ⟨key,orders,touched,named,listed,unanswered,keys,rows,assigned,rfl⟩ := returnReplied_parts filed.stocked done fresh
  have created : createBranchReturnBatches now input depot = .ok next := by
    rw [←createReturnReplied_depot,done]
    rfl
  have nextFiled : Filed next := ⟨(createReturn_stocked filed.stocked created).1,(createReturn_renamed filed.renamed created).once⟩
  have finds : FindsOrMakes now input.sourceBranchId .back key id depot (placeReturn now input key) :=
    placeReturn_finds filed.stocked.batchKeyed
  obtain ⟨first,member⟩ := List.exists_mem_of_ne_nil _ listed
  obtain ⟨entry,inside,-⟩ := List.mem_map.mp ((keys first).mpr member)
  constructor
  · rintro ⟨completed,repeatable⟩
    have untouched := repeatable_fresh filed nextFiled.stocked finds assigned unanswered (return_answers named listed now next)
      (return_refuses named listed now next nextFiled.stocked.keyed) completed repeatable
    have some_ : groupBy resolveReturnDestination orders ≠ [] := by
      obtain ⟨home,here⟩ := Option.ne_none_iff_exists'.mp (rows entry inside).2
      intro empty
      have listed : home ∈ (orders.filterMap fun entry => resolveReturnDestination entry.2.order).eraseDups :=
        List.mem_eraseDups.mpr (List.mem_filterMap.mpr ⟨entry,inside,here⟩)
      rw [groupBy,List.map_eq_nil_iff] at empty
      rw [empty] at listed
      cases listed
    obtain ⟨⟨home,part⟩,rest,shape⟩ := List.exists_cons_of_ne_nil some_
    have distinct := groupBy_distinct resolveReturnDestination orders
    rw [shape] at assigned distinct
    obtain ⟨rfl,rfl,region,placed,assigns⟩ := one_group filed finds distinct assigned untouched
    have made := made_row assigns
    refine ⟨home,region,fun id member row here => ?_,?_⟩
    · obtain ⟨batchId,inside,-,-,batch,row',stored,here',-,-,-,to_,zone⟩ := completed.bound id member
      cases here.symm.trans here'
      obtain rfl : batchId = depot.nextBatchId := by simpa using inside
      cases stored.symm.trans made
      exact ⟨to_,zone⟩
    · intro batchId batch stored source direction destination zone waiting
      exact placeReturn_made filed.stocked placed (batchId,batch) (pending_mem filed.stocked stored source destination direction waiting) zone
  · rintro ⟨home,region,each,none⟩
    have homes : ∀ entry ∈ orders,resolveReturnDestination entry.2.order = some home ∧ entry.2.order.regionId = some region :=
      fun entry member => each entry.1 ((keys entry.1).mp (List.mem_map_of_mem member)) entry.2 (rows entry member).1
    have filled : orders ≠ [] := List.ne_nil_of_mem inside
    have groups : groupBy resolveReturnDestination orders = [(home,orders)] := groupBy_one filled fun entry member => (homes entry member).1
    rw [groups] at assigned
    obtain ⟨placed,places,assigned⟩ := error_bind_parts assigned
    obtain ⟨final,assigns,assigned⟩ := error_bind_parts assigned
    cases assigned
    have head : (orders.head?.bind fun entry => entry.2.order.regionId) = some region := by
      obtain ⟨top,rest,rfl⟩ := List.exists_cons_of_ne_nil filled
      exact (homes top List.mem_cons_self).2
    have lone : ((depot.pendingBatches input.sourceBranchId home .back).mergeSort fun left right =>
        right.2.createdAt ≤ left.2.createdAt).find? (fun entry => entry.2.targetRegionId == region) = Option.none := by
      refine List.find?_eq_none.mpr fun entry member zone => ?_
      obtain ⟨stored,chosen⟩ := pending_row filed.stocked (List.mem_mergeSort.mp member)
      exact none entry.1 entry.2 stored chosen.1 chosen.2.2.1 chosen.2.1 (beq_iff_eq.mp zone) chosen.2.2.2
    simp only [placeReturn,head,lone] at places
    obtain ⟨rfl,-⟩ := saveNewBatch_parts places
    refine ⟨made_completed filed.stocked keys assigns each,?_⟩
    exact made_repeatable nextFiled (made_row assigns) rfl rfl fun now later => return_answers named listed now later
end Returns

-- Both creations are complete and repeatable just when all their orders go to one new batch.
theorem creations_replay {depot : Depot} (filed : Filed depot) :
    (∀ now input reply next,input.orderIds ≠ [] → createTransferReplied now input depot = .ok (reply,next) → reply.idempotent = false →
      (Completed input.sourceBranchId input.direction (fun _ => some input.destinationBranchId) input.orderIds reply depot next ∧
          Repeatable (fun now => createTransferReplied now input) reply next ↔
        OneTarget input.sourceBranchId input.direction (fun _ => some input.destinationBranchId) input.orderIds depot)) ∧
    ∀ now input reply next,createReturnReplied now input depot = .ok (reply,next) → reply.idempotent = false →
      (Completed input.sourceBranchId .back resolveReturnDestination input.orderIds reply depot next ∧
          Repeatable (fun now => createReturnReplied now input) reply next ↔
        OneTarget input.sourceBranchId .back resolveReturnDestination input.orderIds depot) :=
  ⟨fun _ _ _ _ listed done fresh => transfer_replay filed done fresh listed,fun _ _ _ _ done fresh => return_replay filed done fresh⟩

theorem Filed.perform {depot : Depot} (filed : Filed depot) (op : Op) : Filed (op.perform depot) := by
  obtain ⟨stop,same⟩ := perform_until op depot
  rw [same]
  exact ⟨until_stocked filed.stocked op stop,(until_renamed filed.renamed op stop).once⟩
theorem packed_filed : Filed packed := by
  have twoFiled : Filed twoParcels := ((reached_filed []).perform (parcel 100)).perform (parcel 250)
  exact twoParcels_packed ▸ twoFiled.perform (.createTransfer 10 transfer)

-- A third parcel of the region that a pending batch already waits for.
def thirdParcel : Depot := (parcel 70).perform packed
def onward : TransferInput := ⟨2,4,[3],.forward,some "transfer-2"⟩
def appended : Depot :=
  {thirdParcel with
    batches:=[(1,{newBatch 10 2 4 .forward 3 "transfer-1" with orderCount:=3,totalPrice:=420})],
    items:=thirdParcel.items ++ [⟨1,3,70,7,none,false⟩],orders:=updateWhere 20 (unbound [3]) (bindTo 1) thirdParcel.orders}
theorem thirdParcel_appended : createTransferReplied 20 onward thirdParcel = .ok (⟨false,[1]⟩,appended) := by
  have key : normalizeTransferRequestKey onward.requestKey = .ok "transfer-2" := by decide
  have sorted : byCreation (thirdParcel.orders.select (unassignedNew onward.sourceBranchId onward.orderIds.eraseDups)) =
      thirdParcel.orders.select (unassignedNew onward.sourceBranchId onward.orderIds.eraseDups) :=
    List.mergeSort_of_pairwise (by decide)
  have waiting : (thirdParcel.pendingBatches onward.sourceBranchId onward.destinationBranchId onward.direction).mergeSort
      (fun left right => left.2.createdAt ≤ right.2.createdAt) =
        thirdParcel.pendingBatches onward.sourceBranchId onward.destinationBranchId onward.direction :=
    List.mergeSort_of_pairwise (by decide)
  unfold createTransferReplied
  rw [key]
  dsimp only [bind,Except.bind]
  rw [sorted,waiting]
  rfl
theorem creations_replay_third :
    Completed 2 .forward (fun _ => some 4) [3] ⟨false,[1]⟩ thirdParcel appended ∧
        Repeatable (fun now => createTransferReplied now onward) ⟨false,[1]⟩ appended ↔
      OneTarget 2 .forward (fun _ => some 4) [3] thirdParcel :=
  (creations_replay (packed_filed.perform (parcel 70))).1 20 onward ⟨false,[1]⟩ appended (by decide) thirdParcel_appended rfl
theorem creations_replay_lost : Filed thirdParcel ∧ createTransferReplied 20 onward thirdParcel = .ok (⟨false,[1]⟩,appended) ∧
    (∀ now,createTransferReplied now onward appended =
      .error (badRequest "Some orders are not found, not NEW, or already assigned to another batch")) ∧
    ¬Repeatable (fun now => createTransferReplied now onward) ⟨false,[1]⟩ appended := by
  have refused (now : Nat) : createTransferReplied now onward appended =
      .error (badRequest "Some orders are not found, not NEW, or already assigned to another batch") := by
    have key : normalizeTransferRequestKey onward.requestKey = .ok "transfer-2" := by decide
    have sorted : byCreation (appended.orders.select (unassignedNew onward.sourceBranchId onward.orderIds.eraseDups)) = [] :=
      List.mergeSort_nil
    unfold createTransferReplied
    rw [key]
    dsimp only [bind,Except.bind]
    rw [sorted]
    rfl
  refine ⟨packed_filed.perform (parcel 70),thirdParcel_appended,refused,fun repeatable => ?_⟩
  obtain ⟨answer,done,-⟩ := repeatable [] (by decide) 21
  have again : createTransferReplied 21 onward appended = .ok (answer,appended) := done
  rw [refused] at again
  cases again

end Elchi.Batches
