import Elchi.DepotParts
import Elchi.TransferBinding
namespace Elchi.Batches
open Orders RowLock

-- What the tables keep under every operation, also under one that fails midway.
structure Stocked (depot : Depot) : Prop where
  keyed : depot.orders.Keyed
  fresh : ∀ id,depot.orders.row id ≠ none → id < depot.nextOrderId
  marked : ∀ id row,depot.orders.row id = some row → row.order.deletedAt.isSome = true → row.order.isDeleted = true
  batchKeyed : depot.batches.Keyed
  below : ∀ id,depot.batches.row id ≠ none → id < depot.nextBatchId
  kept : ∀ id batch,depot.batches.row id = some batch → batch.isDeleted = false
  unique : (depot.items.map itemKey).Nodup
  placed : ∀ item ∈ depot.items,item.batchId < depot.nextBatchId ∧ depot.orders.row item.orderId ≠ none
  told : ∀ entry ∈ depot.tracking,depot.orders.row entry.1 ≠ none
  logged : ∀ entry ∈ depot.custody,depot.orders.row entry.1 ≠ none

theorem stocked_empty : Stocked emptyDepot := by
  refine ⟨List.nodup_nil,?_,?_,List.nodup_nil,?_,?_,List.nodup_nil,?_,?_,?_⟩
  · exact fun id present => absurd rfl present
  · exact fun id row here => nomatch here
  · exact fun id present => absurd rfl present
  · exact fun id batch here => nomatch here
  · exact fun item member => nomatch member
  · exact fun entry member => nomatch member
  · exact fun entry member => nomatch member

theorem findBatch_stored {depot : Depot} {batchId : Nat} {batch : Batch} (stocked : Stocked depot)
    (stored : depot.batches.row batchId = some batch) : findBatch batchId depot = .ok batch := by
  unfold findBatch
  rw [stored]
  exact if_neg (by simp [stocked.kept batchId batch stored])

section Writes
variable {depot : Depot}

theorem stocked_orders {orders : Table OrderRow} (stocked : Stocked depot) (keyed : orders.Keyed)
    (same : ∀ id,orders.row id = none ↔ depot.orders.row id = none)
    (marked : ∀ id row,orders.row id = some row → row.order.deletedAt.isSome = true → row.order.isDeleted = true) :
    Stocked {depot with orders:=orders} :=
  ⟨keyed,fun id present => stocked.fresh id fun absent => present ((same id).mpr absent),marked,stocked.batchKeyed,stocked.below,
    stocked.kept,stocked.unique,
    fun item member => ⟨(stocked.placed item member).1,fun absent => (stocked.placed item member).2 ((same _).mp absent)⟩,
    fun entry member absent => stocked.told entry member ((same _).mp absent),
    fun entry member absent => stocked.logged entry member ((same _).mp absent)⟩
theorem stocked_events (stocked : Stocked depot) (tracking : Journal TrackingEvent) (custody : Journal CustodyEvent)
    (told : ∀ entry ∈ tracking,depot.orders.row entry.1 ≠ none) (logged : ∀ entry ∈ custody,depot.orders.row entry.1 ≠ none) :
    Stocked {depot with tracking:=depot.tracking ++ tracking,custody:=depot.custody ++ custody} :=
  ⟨stocked.keyed,stocked.fresh,stocked.marked,stocked.batchKeyed,stocked.below,stocked.kept,stocked.unique,stocked.placed,
    fun entry member => (List.mem_append.mp member).elim (stocked.told entry) (told entry),
    fun entry member => (List.mem_append.mp member).elim (stocked.logged entry) (logged entry)⟩
theorem stocked_batches (stocked : Stocked depot) (batches : Table Batch) (keyed : batches.Keyed)
    (same : ∀ id,batches.row id = none ↔ depot.batches.row id = none)
    (kept : ∀ id batch,batches.row id = some batch → batch.isDeleted = false) : Stocked {depot with batches:=batches} :=
  ⟨stocked.keyed,stocked.fresh,stocked.marked,keyed,fun id present => stocked.below id fun absent => present ((same id).mpr absent),
    kept,stocked.unique,stocked.placed,stocked.told,stocked.logged⟩
theorem stocked_items {items : List BatchItem} (stocked : Stocked depot) (keys : items.map itemKey = depot.items.map itemKey) :
    Stocked {depot with items:=items} := by
  refine ⟨stocked.keyed,stocked.fresh,stocked.marked,stocked.batchKeyed,stocked.below,stocked.kept,keys ▸ stocked.unique,?_,
    stocked.told,stocked.logged⟩
  intro item member
  have listed : itemKey item ∈ depot.items.map itemKey := keys ▸ List.mem_map.mpr ⟨item,member,rfl⟩
  obtain ⟨old,present,same⟩ := List.mem_map.mp listed
  have batch : old.batchId = item.batchId := congrArg Prod.fst same
  have order : old.orderId = item.orderId := congrArg Prod.snd same
  rw [←batch,←order]
  exact stocked.placed old present

theorem stocked_save (stocked : Stocked depot) (batch : Batch) (stored : depot.batches.row batchId ≠ none) (kept : batch.isDeleted = false) :
    Stocked (depot.saveBatch batchId batch) := by
  apply stocked_batches stocked _ (put_keyed stocked.batchKeyed _ _)
  · intro id
    rw [row_put]
    split
    · rename_i here
      exact ⟨(nomatch ·),fun absent => absurd absent (here ▸ stored)⟩
    · rfl
  · intro id found here
    rw [row_put] at here
    split at here
    · cases here
      exact kept
    · exact stocked.kept id found here
theorem stocked_insertBatch (stocked : Stocked depot) (kept : batch.isDeleted = false) : Stocked (depot.insertBatch batch) := by
  have rows : ∀ id,(depot.insertBatch batch).batches.row id = if depot.nextBatchId = id then some batch else depot.batches.row id :=
    insertBatch_row depot batch
  refine ⟨stocked.keyed,stocked.fresh,stocked.marked,put_keyed stocked.batchKeyed _ _,?_,?_,stocked.unique,?_,stocked.told,stocked.logged⟩
  · intro id present
    change id < depot.nextBatchId + 1
    rw [rows] at present
    split at present
    · omega
    · exact Nat.lt_succ_of_lt (stocked.below id present)
  · intro id found here
    rw [rows] at here
    split at here
    · cases here
      exact kept
    · exact stocked.kept id found here
  · exact fun item member => ⟨Nat.lt_succ_of_lt (stocked.placed item member).1,(stocked.placed item member).2⟩

theorem stocked_insertOrder (stocked : Stocked depot) (present : row.order.deletedAt = none) : Stocked (depot.insertOrder row) := by
  have rows : ∀ id,(depot.insertOrder row).orders.row id = if depot.nextOrderId = id then some row else depot.orders.row id :=
    fun id => row_put _ _ id _
  have keeps : ∀ id,depot.orders.row id ≠ none → (depot.insertOrder row).orders.row id ≠ none := by
    intro id here
    rw [rows]
    split
    · exact fun impossible => nomatch impossible
    · exact here
  have new : (depot.insertOrder row).orders.row depot.nextOrderId ≠ none := by simp [rows]
  refine ⟨put_keyed stocked.keyed _ _,?_,?_,stocked.batchKeyed,stocked.below,stocked.kept,stocked.unique,?_,?_,?_⟩
  · intro id here
    change id < depot.nextOrderId + 1
    rw [rows] at here
    split at here
    · omega
    · exact Nat.lt_succ_of_lt (stocked.fresh id here)
  · intro id stored here marked
    rw [rows] at here
    split at here
    · cases here
      simp [present] at marked
    · exact stocked.marked id stored here marked
  · exact fun item member => ⟨(stocked.placed item member).1,keeps _ (stocked.placed item member).2⟩
  · intro entry member
    rcases List.mem_append.mp member with old | created
    · exact keeps _ (stocked.told entry old)
    · cases List.mem_singleton.mp created
      exact new
  · intro entry member
    rcases List.mem_append.mp member with old | created
    · exact keeps _ (stocked.logged entry old)
    · cases List.mem_singleton.mp created
      exact new
end Writes

-- Updates of columns keep the rows and their marks of deletion.
structure RowsKept (before after : Table OrderRow) : Prop where
  keyed : before.Keyed → after.Keyed
  same : ∀ id,after.row id = none ↔ before.row id = none
  marks : ∀ id row,after.row id = some row → ∃ stored,before.row id = some stored ∧
    row.order.isDeleted = stored.order.isDeleted ∧ row.order.deletedAt = stored.order.deletedAt
theorem RowsKept.trans {first second third : Table OrderRow} (one : RowsKept first second) (two : RowsKept second third) :
    RowsKept first third := by
  refine ⟨fun keyed => two.keyed (one.keyed keyed),fun id => (two.same id).trans (one.same id),?_⟩
  intro id row here
  obtain ⟨middle,there,deleted,time⟩ := two.marks id row here
  obtain ⟨stored,before,deletedBefore,timeBefore⟩ := one.marks id middle there
  exact ⟨stored,before,deleted.trans deletedBefore,time.trans timeBefore⟩
theorem stocked_rows {depot : Depot} {orders : Table OrderRow} (stocked : Stocked depot) (kept : RowsKept depot.orders orders) :
    Stocked {depot with orders:=orders} := by
  apply stocked_orders stocked (kept.keyed stocked.keyed) kept.same
  intro id row here marked
  obtain ⟨stored,before,deleted,time⟩ := kept.marks id row here
  rw [deleted]
  exact stocked.marked id stored before (time ▸ marked)

theorem setColumns_marks {set : Order → Order} (keeps : ∀ order,(set order).isDeleted = order.isDeleted ∧ (set order).deletedAt = order.deletedAt)
    (now : Nat) (condition : Order → Bool) (row : OrderRow) : (setColumns now condition set row).order.isDeleted = row.order.isDeleted ∧
      (setColumns now condition set row).order.deletedAt = row.order.deletedAt := by
  unfold setColumns
  split
  · exact keeps row.order
  · exact ⟨rfl,rfl⟩
theorem updateWhere_kept (now : Nat) (condition : Nat → Order → Bool) (set : Order → Order)
    (keeps : ∀ order,(set order).isDeleted = order.isDeleted ∧ (set order).deletedAt = order.deletedAt) (orders : Table OrderRow) :
    RowsKept orders (updateWhere now condition set orders) := by
  refine ⟨updateWhere_keyed now condition set,?_,?_⟩
  · intro id
    rw [updateWhere_row,Option.map_eq_none_iff]
  · intro id row here
    rw [updateWhere_row] at here
    obtain ⟨stored,before,rfl⟩ := Option.map_eq_some_iff.mp here
    exact ⟨stored,before,setColumns_marks keeps now (condition id) stored⟩

-- The saves of entities: updates only, and no row gets a time of deletion without the mark.
theorem stocked_writes {depot : Depot} {writes : List (Write OrderRow)} (stocked : Stocked depot)
    (updates : ∀ key value,.insert key value ∉ writes)
    (marks : ∀ key save,.update key save ∈ writes → ∀ row : OrderRow,(row.order.deletedAt.isSome = true → row.order.isDeleted = true) →
      (save row).order.deletedAt.isSome = true → (save row).order.isDeleted = true) :
    Stocked {depot with orders:=applyWrites depot.orders writes} := by
  apply stocked_orders stocked (applyWrites_keyed _ stocked.keyed)
  · intro id
    constructor
    · intro absent
      by_contra present
      rw [applyWrites_row] at absent
      exact written_present writes present absent
    · intro absent
      apply row_none.mpr
      intro member
      rcases applyWrites_keys_mem writes depot.orders member with ⟨value,new⟩ | old
      · exact updates id value new
      · exact row_none.mp absent old
  · exact applyWrites_keeps (fun key value member => absurd member (updates key value)) marks stocked.marked

theorem standing_marks {order entity : Order} (saved : standing order = standing entity) (unmarked : entity.deletedAt = none) :
    order.deletedAt.isSome = true → order.isDeleted = true := by
  have same : order.deletedAt = entity.deletedAt := congrArg Standing.deletedAt saved
  simp [same,unmarked]
theorem stocked_saved {depot : Depot} {entity : Order} {save : OrderRow → OrderRow} (stocked : Stocked depot)
    (saves : ∀ row,standing (save row).order = standing entity) (unmarked : entity.deletedAt = none) (id : Nat) :
    Stocked {depot with orders:=applyWrites depot.orders [.update id save]} := by
  apply stocked_writes stocked
  · intro key value member
    cases List.mem_singleton.mp member
  · intro key other member row _
    cases List.mem_singleton.mp member
    exact standing_marks (saves row) unmarked
theorem stocked_record {depot : Depot} {orders : Table OrderRow} {id : Nat} (stocked : Stocked {depot with orders:=orders})
    (present : orders.row id ≠ none) : Stocked (depot.record id before after orders) := by
  apply stocked_events stocked
  · intro entry member
    obtain ⟨event,-,rfl⟩ := List.mem_map.mp member
    exact present
  · intro entry member
    obtain ⟨event,-,rfl⟩ := List.mem_map.mp member
    exact present
theorem saved_present {depot : Depot} {id : Nat} (here : depot.orders.row id = some row) (writes : List (Write OrderRow)) :
    Table.row (applyWrites depot.orders writes) id ≠ none := by
  rw [applyWrites_row]
  exact written_present writes (by simp [here])

theorem updateOrder_unmarked (passed : updateOrder lookups requesterId dto order = .ok updated) (alive : live order = true) :
    updated.deletedAt = none := by
  rw [(updateOrder_keeps passed).2.2.1]
  exact (live_standing.mp alive).2

theorem sellOrder_stocked {id : Nat} (stocked : Stocked depot) (done : sellOrder lookups requester id dto requestId depot = .ok next) :
    Stocked next := by
  obtain ⟨row,plan,updated,here,alive,-,passed,rfl⟩ := sellOrder_parts done
  exact stocked_record (stocked_saved stocked (fun stored => standing_soldRow _ updated _ stored) (updateOrder_unmarked passed alive) id)
    (saved_present here _)
theorem partlySellOrder_stocked {id : Nat} (stocked : Stocked depot)
    (done : partlySellOrder lookups requester id dto requestId token depot = .ok next) : Stocked next := by
  obtain ⟨row,plan,updated,here,alive,planned,passed,rfl⟩ := partlySellOrder_parts done
  apply stocked_insertOrder ?_ (live_standing.mp (partlySellPlan_child planned).2.1).2
  exact stocked_record (stocked_saved stocked (fun stored => standing_partlySoldRow _ updated plan stored)
    (updateOrder_unmarked passed alive) id) (saved_present here _)
theorem cancelOrder_stocked {id : Nat} (stocked : Stocked depot) (done : cancelOrder lookups requester id dto requestId depot = .ok next) :
    Stocked next := by
  obtain ⟨row,plan,updated,here,alive,-,passed,rfl⟩ := cancelOrder_parts done
  exact stocked_record (stocked_saved stocked (fun stored => standing_saveRow _ updated stored) (updateOrder_unmarked passed alive) id)
    (saved_present here _)
theorem rollback_stocked {id : Nat} (stocked : Stocked depot)
    (done : rollbackOrderToWaiting lookups requester id targetStatus requestId depot = .ok next) : Stocked next := by
  obtain ⟨row,target,plan,items,updated,here,alive,-,passed,rfl⟩ := rollback_parts done
  refine stocked_record (stocked_writes stocked (rollbackWrites_updates _ _ _ _ _ _) ?_) (saved_present here _)
  intro key save member stored _
  rcases List.mem_append.mp member with deleted | own
  · obtain ⟨child,-,same⟩ := List.mem_map.mp deleted
    cases same
    exact fun _ => congrArg Standing.isDeleted (standing_saveRow _ {child.2.order with isDeleted:=true,deletedAt:=_} stored)
  · cases List.mem_singleton.mp own
    exact standing_marks (standing_rollbackRow _ _ _ _ updated stored) (updateOrder_unmarked passed alive)

theorem create_stocked (stocked : Stocked depot) (created : create lookups userBranch dto requester token depot = .ok next) : Stocked next := by
  obtain ⟨branchId,-,rfl⟩ := create_parts created
  exact stocked_insertOrder stocked rfl
theorem updateFull_stocked {id : Nat} (stocked : Stocked depot) (done : updateFull lookups requesterId id dto depot = .ok commits) (stop : Nat) :
    Stocked (applyAll (commits.take stop) depot) := by
  obtain ⟨row,updated,here,alive,edited,edits,states⟩ := updateFull_until done stop
  have passed := editOrder_parts edited
  have items : ∀ key save,.update key save ∈ itemWrites id edits → ∀ stored : OrderRow,
      (stored.order.deletedAt.isSome = true → stored.order.isDeleted = true) →
        (save stored).order.deletedAt.isSome = true → (save stored).order.isDeleted = true := by
    intro key save member stored marked
    obtain ⟨edit,-,same⟩ := List.mem_map.mp member
    cases same
    exact marked
  rcases states with same | same
  · rw [same]
    apply stocked_writes stocked
    · intro key value member
      obtain ⟨edit,-,impossible⟩ := List.mem_map.mp member
      cases impossible
    · exact items
  · rw [same]
    apply stocked_record (stocked_writes stocked ?_ ?_) (saved_present here _)
    · intro key value member
      rcases List.mem_append.mp member with edited | saved
      · obtain ⟨edit,-,impossible⟩ := List.mem_map.mp edited
        cases impossible
      · cases List.mem_singleton.mp saved
    · intro key save member stored marked
      rcases List.mem_append.mp member with edited | saved
      · exact items key save edited stored marked
      · cases List.mem_singleton.mp saved
        exact standing_marks (standing_saveRow _ (updateEntity dto updated) stored)
          ((updateOrder_unmarked passed alive : updated.deletedAt = none))

theorem markByProvider_stocked {id : Nat} (stocked : Stocked depot) (done : markByProvider now id action depot = .ok next) : Stocked next := by
  obtain ⟨row,here,alive,rfl | ⟨-,rfl⟩⟩ := markByProvider_parts done
  · exact stocked
  · have saved := stocked_saved stocked (fun stored => standing_saveRow now (providerOrder now action row.order) stored)
      (live_standing.mp alive).2 id
    have told := stocked_events saved [(id,⟨some row.order.status,action.target⟩)] []
      (fun entry member => List.mem_singleton.mp member ▸ saved_present here _) (fun entry member => nomatch member)
    rw [List.append_nil] at told
    exact told

theorem closeCustody_stocked {depot : Depot} {id : Nat} {status : OrderStatus} (stocked : Stocked depot)
    (here : depot.orders.row id ≠ none) : Stocked (closeCustody id before status depot) :=
  stocked_events stocked _ _ (fun _ member => List.mem_singleton.mp member ▸ here) (fun _ member => List.mem_singleton.mp member ▸ here)
theorem markReturned_stocked {id : Nat} (stocked : Stocked depot) (done : markReturnedToMarket lookups id depot = .ok next) : Stocked next := by
  obtain ⟨row,here,alive,-,rfl⟩ := markReturned_parts done
  have saved := stocked_saved stocked (fun stored => standing_saveRow lookups.now (returnedOrder row.order) stored)
    (live_standing.mp alive).2 id
  exact closeCustody_stocked saved (saved_present here [.update id _])
theorem handOver_stocked {orders : Table OrderRow} {depot : Depot} (stocked : Stocked depot)
    (each : ∀ entry ∈ orders,depot.orders.row entry.1 ≠ none ∧ live entry.2.order = true) :
    Stocked (handOver now requesterId orders depot) := by
  induction orders generalizing depot with
  | nil => exact stocked
  | cons entry rest ih =>
    obtain ⟨present,alive⟩ := each entry List.mem_cons_self
    obtain ⟨row,here⟩ := Option.ne_none_iff_exists'.mp present
    have saved := stocked_saved stocked
      (fun stored => standing_saveRow now (handedOverOrder now requesterId entry.2.order) stored) (live_standing.mp alive).2 entry.1
    apply ih (closeCustody_stocked saved (saved_present here [.update entry.1 _]))
    intro other member
    obtain ⟨there,alive⟩ := each other (.tail _ member)
    obtain ⟨stored,here⟩ := Option.ne_none_iff_exists'.mp there
    exact ⟨saved_present here [.update entry.1 _],alive⟩
theorem handover_stocked (stocked : Stocked depot)
    (done : completeMarketCancelledHandover now requesterId marketId orderIds authorization depot = .ok next) : Stocked next := by
  rw [completeHandover_parts done]
  apply handOver_stocked stocked
  intro entry member
  obtain ⟨here,chosen⟩ := select_row stocked.keyed member
  simp only [handoverReady,Bool.and_eq_true] at chosen
  exact ⟨by simp [here],chosen.2.2⟩

-- Rows are added, none goes away, and no batch changes its status.
structure Grown (before after : Depot) : Prop where
  orders : ∀ id,before.orders.row id ≠ none → after.orders.row id ≠ none
  batches : ∀ id batch,before.batches.row id = some batch → ∃ found,after.batches.row id = some found ∧ found.status = batch.status
theorem Grown.refl (depot : Depot) : Grown depot depot := ⟨fun _ here => here,fun _ batch here => ⟨batch,here,rfl⟩⟩
theorem Grown.trans {first second third : Depot} (one : Grown first second) (two : Grown second third) : Grown first third := by
  refine ⟨fun id here => two.orders id (one.orders id here),fun id batch here => ?_⟩
  obtain ⟨middle,there,same⟩ := one.batches id batch here
  obtain ⟨found,last,again⟩ := two.batches id middle there
  exact ⟨found,last,again.trans same⟩
theorem Grown.present {before after : Depot} (grown : Grown before after) {id : Nat} (here : before.batches.row id ≠ none) :
    after.batches.row id ≠ none := by
  obtain ⟨batch,stored⟩ := Option.ne_none_iff_exists'.mp here
  obtain ⟨found,there,-⟩ := grown.batches id batch stored
  simp [there]

theorem insertBatch_grown {depot : Depot} (stocked : Stocked depot) (batch : Batch) :
    Grown depot (depot.insertBatch batch) ∧ (depot.insertBatch batch).batches.row depot.nextBatchId ≠ none := by
  refine ⟨⟨fun _ here => here,?_⟩,by simp [insertBatch_row]⟩
  intro id old here
  have different : depot.nextBatchId ≠ id := Nat.ne_of_gt (stocked.below id (by simp [here]))
  exact ⟨old,by rw [insertBatch_row,if_neg different,here],rfl⟩

theorem assignOrders_stocked (stocked : Stocked depot) (present : depot.batches.row batchId ≠ none) (keyed : Table.Keyed orders)
    (each : ∀ entry ∈ orders,depot.orders.row entry.1 ≠ none) (assigned : assignOrders now batchId orders depot = .ok next) :
    Stocked next ∧ Grown depot next := by
  have unique := assignOrders_unique stocked.unique assigned keyed
  obtain ⟨-,-,rfl⟩ := assignOrders_parts assigned
  have rows : ∀ id,Table.row (updateWhere now (unbound (orders.map (·.1))) (bindTo batchId) depot.orders) id = none ↔
      depot.orders.row id = none := by
    intro id
    rw [updateWhere_row,Option.map_eq_none_iff]
  have batchRows : ∀ id,((Write.update batchId (countIn orders)).apply depot.batches).row id = none ↔ depot.batches.row id = none := by
    intro id
    rw [update_row]
    split
    · exact Option.map_eq_none_iff
    · rfl
  have bound := stocked_rows stocked (updateWhere_kept now (unbound (orders.map (·.1))) (bindTo batchId) (fun _ => ⟨rfl,rfl⟩) depot.orders)
  have counted := stocked_batches bound ((Write.update batchId (countIn orders)).apply depot.batches)
    (apply_keyed _ stocked.batchKeyed) batchRows (by
      intro id batch here
      rw [update_row] at here
      split at here
      · obtain ⟨old,there,rfl⟩ := Option.map_eq_some_iff.mp here
        exact stocked.kept id old there
      · exact stocked.kept id batch here)
  refine ⟨⟨counted.keyed,counted.fresh,counted.marked,counted.batchKeyed,counted.below,counted.kept,unique,?_,counted.told,counted.logged⟩,
    ⟨fun id here absent => here ((rows id).mp absent),?_⟩⟩
  · intro item member
    rcases List.mem_append.mp member with old | new
    · exact counted.placed item old
    · obtain ⟨entry,listed,rfl⟩ := List.mem_map.mp new
      exact ⟨stocked.below batchId present,fun absent => each entry listed ((rows entry.1).mp absent)⟩
  · intro id batch here
    rw [update_row]
    split
    · exact ⟨countIn orders batch,by rw [here]; rfl,rfl⟩
    · exact ⟨batch,here,rfl⟩

theorem assignGroups_stocked {place : Nat → Table OrderRow → Depot → Except RpcError (Nat × Depot)} {groups : List (Nat × Table OrderRow)}
    (stocked : Stocked depot) (parts : ∀ part ∈ groups,Table.Keyed part.2 ∧ ∀ entry ∈ part.2,depot.orders.row entry.1 ≠ none)
    (places : ∀ group orders current placed,Stocked current → Grown depot current → place group orders current = .ok placed →
      placed.2 = current ∧ current.batches.row placed.1 ≠ none ∨ ∃ now source destination direction region key,
        placed = (current.nextBatchId,current.insertBatch (newBatch now source destination direction region key)))
    (assigned : assignGroups now place groups depot = .ok next) : Stocked next ∧ Grown depot next := by
  refine assignGroups_keeps (P:=fun current => Stocked current ∧ Grown depot current) groups ?_ ⟨stocked,Grown.refl depot⟩ assigned
  rintro group orders current placed next member ⟨held,grown⟩ found assigns
  obtain ⟨keyed,each⟩ := parts (group,orders) member
  have present : ∀ entry ∈ orders,current.orders.row entry.1 ≠ none := fun entry listed => grown.orders _ (each entry listed)
  rcases places group orders current placed held grown found with ⟨same,here⟩ | ⟨_,_,_,_,_,_,rfl⟩
  · rw [same] at assigns
    obtain ⟨after,more⟩ := assignOrders_stocked held here keyed present assigns
    exact ⟨after,grown.trans more⟩
  · obtain ⟨placedGrown,here⟩ := insertBatch_grown held (newBatch _ _ _ _ _ _)
    obtain ⟨after,more⟩ := assignOrders_stocked (stocked_insertBatch held rfl) here keyed present assigns
    exact ⟨after,grown.trans (placedGrown.trans more)⟩

theorem groups_stored {group : Order → Option Nat} {orders : Table OrderRow} (stocked : Stocked depot) (keyed : Table.Keyed orders)
    (each : ∀ entry ∈ orders,entry ∈ depot.orders) :
    ∀ part ∈ groupBy group orders,Table.Keyed part.2 ∧ ∀ entry ∈ part.2,depot.orders.row entry.1 ≠ none := by
  rintro ⟨value,part⟩ member
  refine ⟨groupBy_keyed keyed member,fun entry listed => ?_⟩
  rw [(row_exact stocked.keyed).mp (each entry (groupBy_mem member listed))]
  exact (nomatch ·)
theorem pendingBatches_stored {depot : Depot} {id : Nat} {direction : BatchDirection} (keyed : depot.batches.Keyed)
    (member : (id,batch) ∈ depot.pendingBatches source destination direction) : depot.batches.row id ≠ none := by
  rw [(select_row keyed member).1]
  exact (nomatch ·)

theorem createTransfer_stocked (stocked : Stocked depot) (created : createBranchTransferBatches now input depot = .ok next) :
    Stocked next ∧ Grown depot next := by
  rcases createTransfer_parts created with rfl | ⟨key,pending,orders,each,keyed,reusable,assigned⟩
  · exact ⟨stocked,Grown.refl _⟩
  · apply assignGroups_stocked stocked (groups_stored stocked (keyed stocked.keyed) fun entry listed => (each entry listed).1) ?_ assigned
    intro group orders current placed _ grown found
    rcases placeInRegion_parts found with ⟨batch,listed,same⟩ | fresh
    · exact .inl ⟨same,grown.present (pendingBatches_stored stocked.batchKeyed (reusable _ listed))⟩
    · exact .inr ⟨_,_,_,_,_,_,fresh⟩
theorem createReturn_stocked (stocked : Stocked depot) (created : createBranchReturnBatches now input depot = .ok next) :
    Stocked next ∧ Grown depot next := by
  rcases createReturn_parts created with rfl | ⟨key,orders,each,keyed,assigned⟩
  · exact ⟨stocked,Grown.refl _⟩
  · apply assignGroups_stocked stocked (groups_stored stocked (keyed stocked.keyed) fun entry listed => (each entry listed).1) ?_ assigned
    intro group orders current placed held _ found
    rcases placeReturn_parts found with ⟨batch,listed,same⟩ | ⟨region,fresh⟩
    · exact .inl ⟨same,pendingBatches_stored held.batchKeyed listed⟩
    · exact .inr ⟨_,_,_,_,_,_,fresh⟩

theorem stocked_inbox {depot : Depot} (stocked : Stocked depot) (inbox : List (String × String)) : Stocked {depot with inbox:=inbox} :=
  ⟨stocked.keyed,stocked.fresh,stocked.marked,stocked.batchKeyed,stocked.below,stocked.kept,stocked.unique,stocked.placed,stocked.told,
    stocked.logged⟩
theorem bulkAssign_stocked (stocked : Stocked depot) (done : bulkAssignBatch now batchId orderIds messageId depot = .ok next) : Stocked next := by
  rcases bulkAssign_parts done with rfl | ⟨message,-,-,-,-,rfl⟩
  · exact stocked
  · exact stocked_inbox (stocked_rows stocked (updateWhere_kept _ _ (bindTo batchId) (fun _ => ⟨rfl,rfl⟩) _)) _
theorem bulkRemove_stocked (stocked : Stocked depot) (done : bulkRemoveFromBatch now batchId messageId depot = .ok next) : Stocked next := by
  rcases bulkRemove_parts done with rfl | ⟨message,-,-,rfl⟩
  · exact stocked
  · exact stocked_inbox (stocked_rows stocked (updateWhere_kept now (fun _ order => order.currentBatchId == some batchId) unbind
      (fun _ => ⟨rfl,rfl⟩) depot.orders)) _

theorem tracked_stored {depot : Depot} {orders : Table OrderRow} (each : ∀ entry ∈ orders,depot.orders.row entry.1 ≠ none)
    (status : OrderStatus) : ∀ event ∈ tracked status orders,depot.orders.row event.1 ≠ none := by
  intro event member
  obtain ⟨entry,listed,chosen⟩ := List.mem_filterMap.mp member
  split at chosen
  · cases chosen
  · cases chosen
    exact each entry listed
theorem ordersIn_stored {depot : Depot} (stocked : Stocked depot) {ids : List Nat} (member : entry ∈ depot.ordersIn ids) :
    depot.orders.row entry.1 = some entry.2 ∧ entry.1 ∈ ids ∧ live entry.2.order = true := by
  obtain ⟨here,chosen⟩ := select_row stocked.keyed member
  simp only [Bool.and_eq_true,List.contains_iff_mem] at chosen
  exact ⟨here,chosen⟩
theorem ordersIn_present {depot : Depot} (stocked : Stocked depot) (ids : List Nat) : ∀ entry ∈ depot.ordersIn ids,
    depot.orders.row entry.1 ≠ none := by
  intro entry member
  rw [(ordersIn_stored stocked member).1]
  exact (nomatch ·)

-- The batch of a transfer is as it was read; it need not be the one stored.
theorem receiveBatch_stocked (stocked : Stocked depot) (present : depot.batches.row batchId ≠ none) (kept : batch.isDeleted = false)
    (now requesterId : Nat) : Stocked (receiveBatch now requesterId batchId batch depot) := by
  have orders := ordersIn_present stocked ((depot.liveItems batchId).map (·.orderId))
  have rows : RowsKept depot.orders (receiveBatch now requesterId batchId batch depot).orders := by
    dsimp only [receiveBatch]
    refine RowsKept.trans ?_ (updateWhere_kept now _ (withStatus .new) (fun _ => ⟨rfl,rfl⟩) _)
    refine RowsKept.trans ?_ (updateWhere_kept now _ (withStatus .received) (fun _ => ⟨rfl,rfl⟩) _)
    exact updateWhere_kept now _ (atBranch now requesterId batch.destinationBranchId) (fun _ => ⟨rfl,rfl⟩) _
  refine stocked_save (stocked_rows (stocked_events stocked _ _ ?_ ?_) rows)
    (receivedBatch now requesterId batch) present kept
  · intro event member
    rcases List.mem_append.mp member with first | second
    · exact tracked_stored (fun entry listed => orders entry (List.mem_filter.mp listed).1) _ event first
    · exact tracked_stored (fun entry listed => orders entry (List.mem_filter.mp listed).1) _ event second
  · intro event member
    obtain ⟨entry,listed,inside⟩ := List.mem_flatMap.mp member
    obtain ⟨_,-,rfl⟩ := List.mem_map.mp inside
    exact orders entry listed

theorem receiveSelected_stocked {selectedItems : List BatchItem} (stocked : Stocked depot) (present : depot.batches.row batchId ≠ none)
    (kept : batch.isDeleted = false) (scanned : ∀ item ∈ selectedItems,item ∈ depot.liveItems batchId) (now requesterId : Nat) :
    Stocked (receiveSelected now requesterId batchId batch selectedItems depot) := by
  have found : ∀ ids id entry,(depot.ordersIn ids).find? (fun entry => entry.1 == id) = some entry → depot.orders.row entry.1 ≠ none := by
    intro ids id entry chosen
    exact ordersIn_present stocked ids entry (List.mem_of_find?_eq_some chosen)
  have rows : RowsKept depot.orders (receiveSelected now requesterId batchId batch selectedItems depot).orders := by
    dsimp only [receiveSelected]
    refine RowsKept.trans ?_ (updateWhere_kept now _ (detached (batch.direction == .forward)) (fun _ => ⟨rfl,rfl⟩) _)
    exact updateWhere_kept now _ (receivedOrder now requesterId batch.destinationBranchId) (fun _ => ⟨rfl,rfl⟩) _
  refine stocked_items (stocked_save (stocked_rows (stocked_events stocked _ _ ?_ ?_) rows) (receivedBatch now requesterId
    {batch with orderCount:=selectedItems.length,totalPrice:=snapshotTotal selectedItems}) present kept) ?_
  · intro event member
    rcases List.mem_append.mp member with first | second
    · refine tracked_stored ?_ _ event first
      intro entry listed
      obtain ⟨id,-,chosen⟩ := List.mem_filterMap.mp listed
      exact found _ id entry chosen
    · refine tracked_stored ?_ _ event second
      intro entry listed
      split at listed
      · exact ordersIn_present stocked _ entry listed
      · cases listed
  · intro event member
    obtain ⟨id,selected,inside⟩ := List.mem_flatMap.mp member
    obtain ⟨item,listed,rfl⟩ := List.mem_map.mp selected
    have known := (stocked.placed item (mem_liveItems.mp (scanned item listed)).1).2
    split at inside
    · obtain ⟨_,-,rfl⟩ := List.mem_map.mp inside
      exact known
    · cases List.mem_singleton.mp inside
      exact known
  · exact (deleteItems_keys _ _ _).trans (deleteItems_keys _ _ _)

theorem rebatch_stocked (stocked : Stocked depot) (done : rebatch now batchId batch remaining depot = .ok next) :
    Stocked next ∧ Grown depot next := by
  unfold rebatch at done
  dsimp only at done
  split at done
  · cases done
    exact ⟨stocked,Grown.refl _⟩
  split at done
  · exact createReturn_stocked stocked done
  · exact createTransfer_stocked stocked done

theorem cancelBatch_stocked (stocked : Stocked depot) (present : depot.batches.row batchId ≠ none) (kept : batch.isDeleted = false) (now : Nat) :
    Stocked (cancelBatch now batchId batch depot) := by
  have rows : ∀ requeue,RowsKept depot.orders (updateWhere now (fun _ order => order.currentBatchId == some batchId) (detached requeue)
      depot.orders) := fun requeue => updateWhere_kept now _ (detached requeue) (fun _ => ⟨rfl,rfl⟩) depot.orders
  have told := stocked_events stocked (if batch.direction == .forward && !(depot.orders.select fun _ row =>
    row.order.currentBatchId == some batchId && live row.order).isEmpty then tracked .new (depot.orders.select fun _ row =>
    row.order.currentBatchId == some batchId && live row.order) else []) [] ?_ (fun _ member => nomatch member)
  · rw [List.append_nil] at told
    exact stocked_save (stocked_rows told (rows _)) (cancelledBatch now batch) present kept
  · intro event member
    split at member
    · refine tracked_stored ?_ _ event member
      intro entry listed
      rw [(select_row stocked.keyed listed).1]
      exact (nomatch ·)
    · cases member

theorem cancelBatches_stocked (stocked : Stocked depot)
    (cancelled : cancelBranchTransferBatches now batchIds remove depot = .ok next) : Stocked next := by
  obtain ⟨-,rfl⟩ := cancelBatches_parts cancelled
  let close := fun (id : Nat) (batch : Batch) =>
    if batchIds.contains id && !batch.isDeleted then {batch with status:=.cancelled,cancelledAt:=some now} else batch
  have closed := stocked_batches stocked (depot.batches.map fun entry => (entry.1,close entry.1 entry.2)) (map_keyed close stocked.batchKeyed)
    (fun id => by rw [map_row,Option.map_eq_none_iff]) (by
      intro id batch here
      rw [map_row] at here
      obtain ⟨old,there,rfl⟩ := Option.map_eq_some_iff.mp here
      have kept := stocked.kept id old there
      simp only [close]
      split
      · exact kept
      · exact kept)
  cases remove with
  | false => exact closed
  | true => exact stocked_rows closed (updateWhere_kept now (fun _ order => order.currentBatchId.any fun id => batchIds.contains id) unbind
      (fun _ => ⟨rfl,rfl⟩) depot.orders)

-- Nothing unsent is left in the batch once the items are marked.
def leavesWhole (now batchId : Nat) (toMark : List BatchItem) (depot : Depot) : Bool :=
  ((markSent now batchId (toMark.map (·.orderId)) depot).liveItems batchId).all fun item => item.sentAt.isSome
-- How many events a send that stops has written once it has updated the orders; none when it
-- does not get that far. A part that leaves takes two writes more than a whole batch, and a
-- taken key ends the send.
def toldBy (now batchId : Nat) (random : String) (batch : Batch) (toMark : List BatchItem) (depot : Depot) (stop : Nat) : Option Nat :=
  if leavesWhole now batchId toMark depot then
    if 3 ≤ stop then some (stop-3) else none
  else if depot.keyTaken batch.sourceBranchId (splitKey now batchId random) = false ∧ 5 ≤ stop then some (stop-5)
  else none

-- Before it the tables of the orders are as they were.
structure Readied (depot base : Depot) : Prop where
  stocked : Stocked base
  orders : base.orders = depot.orders
  tracking : base.tracking = depot.tracking
  custody : base.custody = depot.custody

theorem applyAll_trackEach (events : Journal TrackingEvent) (depot : Depot) :
    applyAll (trackEach events) depot = {depot with tracking:=depot.tracking ++ events} := by
  induction events generalizing depot with
  | nil => simp [applyAll,trackEach]
  | cons event rest ih =>
    have later := ih (depot.track event)
    simp only [applyAll,trackEach,List.map_cons,List.foldl_cons] at later ⊢
    rw [later]
    simp [Depot.track]

theorem markSent_readied (stocked : Stocked depot) (now batchId : Nat) (ids : List Nat) : Readied depot (markSent now batchId ids depot) :=
  ⟨stocked_items stocked (markItems_keys depot.items),rfl,rfl,rfl⟩
theorem Readied.save {depot base : Depot} (readied : Readied depot base) (batch : Batch) (stored : base.batches.row batchId ≠ none)
    (kept : batch.isDeleted = false) : Readied depot (base.saveBatch batchId batch) :=
  ⟨stocked_save readied.stocked batch stored kept,readied.orders,readied.tracking,readied.custody⟩
theorem Readied.insert {depot base : Depot} (readied : Readied depot base) (batch : Batch) (kept : batch.isDeleted = false) :
    Readied depot (base.insertBatch batch) :=
  ⟨stocked_insertBatch readied.stocked kept,readied.orders,readied.tracking,readied.custody⟩
theorem Readied.move {depot base : Depot} {sentBatchId : Nat} (readied : Readied depot base) (batchId : Nat) (ids : List Nat)
    (below : sentBatchId < base.nextBatchId) (fresh : ∀ item ∈ base.items,item.batchId ≠ sentBatchId) :
    Readied depot (moveTo batchId sentBatchId ids base) := by
  obtain ⟨stocked,orders,tracking,custody⟩ := readied
  refine ⟨⟨stocked.keyed,stocked.fresh,stocked.marked,stocked.batchKeyed,stocked.below,stocked.kept,moveItems_unique stocked.unique fresh,?_,
    stocked.told,stocked.logged⟩,orders,tracking,custody⟩
  intro item member
  obtain ⟨before,there,rfl⟩ := List.mem_map.mp member
  split
  · exact ⟨below,(stocked.placed before there).2⟩
  · exact stocked.placed before there

theorem take_trackEach (events : Journal TrackingEvent) (n : Nat) : (trackEach events).take n = trackEach (events.take n) :=
  (List.map_take ..).symm

theorem send_until (stocked : Stocked depot) (present : depot.batches.row batchId ≠ none) (kept : batch.isDeleted = false)
    (sent : sendBatch now batchId random input batch depot = .ok commits) (stop : Nat) :
    ∃ toMark,itemsToMark (depot.liveItems batchId) input.orderIds.eraseDups = .ok toMark ∧ ∃ base sentBatchId,Readied depot base ∧
      applyAll (commits.take stop) depot = match toldBy now batchId random batch toMark depot stop with
        | none => base
        | some n => {sendOrders now batchId sentBatchId batch (toMark.map (·.orderId)) base with
            tracking:=depot.tracking ++ (sendEvents batch (toMark.map (·.orderId)) depot).take n} := by
  obtain ⟨toMark,selected,ways⟩ := sendBatch_parts sent
  refine ⟨toMark,selected,?_⟩
  have start : Readied depot depot := ⟨stocked,rfl,rfl,rfl⟩
  have marked := markSent_readied stocked now batchId (toMark.map (·.orderId))
  unfold toldBy leavesWhole
  rcases ways with ⟨all,rfl⟩ | ⟨part,taken,rfl⟩ | ⟨part,free,rfl⟩
  · rw [if_pos (List.all_eq_true.mpr all)]
    have saved := marked.save (sentBatch now input batch) (present : (markSent now batchId _ depot).batches.row batchId ≠ none) kept
    match stop with
    | 0 => exact ⟨_,0,start,rfl⟩
    | 1 => exact ⟨_,0,marked,rfl⟩
    | 2 => exact ⟨_,0,saved,rfl⟩
    | n+3 =>
      refine ⟨_,batchId,saved,?_⟩
      rw [if_pos (by omega),Nat.add_sub_cancel]
      simp only [List.cons_append,List.nil_append,List.take_succ_cons,take_trackEach]
      exact applyAll_trackEach _ _
  · rw [if_neg fun all => part (List.all_eq_true.mp all),if_neg fun both => absurd both.1 (by simp [taken])]
    match stop with
    | 0 => exact ⟨_,0,start,rfl⟩
    | n+1 => exact ⟨_,0,marked,by simp only [List.take_succ_cons,List.take_nil]; rfl⟩
  · rw [if_neg fun all => part (List.all_eq_true.mp all)]
    have inserted := marked.insert (splitBatch now batchId random input toMark batch) rfl
    have moved := inserted.move batchId (toMark.map (·.orderId)) (Nat.lt_succ_self depot.nextBatchId)
      fun item member => Nat.ne_of_lt (marked.stocked.placed item member).1
    have saved := moved.save (remainingBatch (((markSent now batchId (toMark.map (·.orderId)) depot).liveItems batchId).filter
      fun item => item.sentAt.isNone) batch) ((insertBatch_grown marked.stocked _).1.present present) kept
    match stop with
    | 0 => exact ⟨_,0,start,by simp [applyAll]⟩
    | 1 => exact ⟨_,0,marked,by simp [applyAll]⟩
    | 2 => exact ⟨_,0,inserted,by simp [applyAll]⟩
    | 3 => exact ⟨_,0,moved,by simp [applyAll]⟩
    | 4 => exact ⟨_,0,saved,by simp [applyAll]⟩
    | n+5 =>
      refine ⟨_,depot.nextBatchId,saved,?_⟩
      rw [if_pos ⟨free,by omega⟩,Nat.add_sub_cancel]
      simp only [List.cons_append,List.nil_append,List.take_succ_cons,take_trackEach]
      exact applyAll_trackEach _ _

-- An operation that stops anywhere has committed a front of what it commits.
theorem until_commits (op : Op) (stop : Nat) (depot : Depot) : op.performUntil stop depot = depot ∨
    ∃ commits,op.commits depot = .ok commits ∧ op.performUntil stop depot = applyAll (commits.take stop) depot := by
  unfold Op.performUntil
  split
  · rename_i commits done
    exact .inr ⟨commits,done,rfl⟩
  · exact .inl rfl
theorem until_one {op : Op} {result : Except RpcError Depot} (one : op.commits depot = oneCommit result) (stop : Nat) :
    op.performUntil stop depot = depot ∨ ∃ next,result = .ok next ∧ op.performUntil stop depot = next := by
  rcases until_commits op stop depot with same | ⟨commits,done,same⟩
  · exact .inl same
  · cases result with
    | error refused => rw [one] at done; cases done
    | ok next =>
      rw [one] at done
      cases done
      match stop with
      | 0 => exact .inl same
      | n+1 => exact .inr ⟨next,rfl,same.trans (by rw [List.take_succ_cons,List.take_nil]; rfl)⟩
theorem perform_until (op : Op) (depot : Depot) : ∃ stop,op.perform depot = op.performUntil stop depot := by
  unfold Op.perform Op.performUntil
  cases op.commits depot with
  | error _ => exact ⟨0,rfl⟩
  | ok commits => exact ⟨commits.length,by simp⟩

-- What a single commit keeps, a run that stops before or after it keeps.
theorem until_keeps {P : Depot → Prop} {op : Op} {result : Except RpcError Depot} (one : op.commits depot = oneCommit result) (stop : Nat)
    (holds : P depot) (keeps : ∀ next,result = .ok next → P next) : P (op.performUntil stop depot) := by
  rcases until_one one stop with same | ⟨next,done,same⟩
  · rw [same]
    exact holds
  · rw [same]
    exact keeps next done

theorem front_keeps {P : Depot → Prop} {op : Op} (stop : Nat) (holds : P depot)
    (keeps : ∀ commits,op.commits depot = .ok commits → P (applyAll (commits.take stop) depot)) : P (op.performUntil stop depot) := by
  rcases until_commits op stop depot with same | ⟨commits,done,same⟩
  · rw [same]
    exact holds
  · rw [same]
    exact keeps commits done

theorem send_stocked (stocked : Stocked depot) (present : depot.batches.row batchId ≠ none) (kept : batch.isDeleted = false)
    (sent : sendBatch now batchId random input batch depot = .ok commits) (stop : Nat) : Stocked (applyAll (commits.take stop) depot) := by
  obtain ⟨toMark,-,base,sentBatchId,readied,same⟩ := send_until stocked present kept sent stop
  rw [same]
  split
  · exact readied.stocked
  · have rows := updateWhere_kept now (fun id order => (toMark.map (·.orderId)).contains id && order.currentBatchId == some batchId)
      (sentOrder batch sentBatchId) (fun _ => ⟨rfl,rfl⟩) base.orders
    have moved := stocked_rows readied.stocked rows
    refine ⟨moved.keyed,moved.fresh,moved.marked,moved.batchKeyed,moved.below,moved.kept,moved.unique,moved.placed,?_,moved.logged⟩
    intro event member
    rcases List.mem_append.mp member with old | new
    · exact moved.told event (readied.tracking ▸ old)
    · have told : ∀ entry ∈ sendEvents batch (toMark.map (·.orderId)) depot,depot.orders.row entry.1 ≠ none := by
        unfold sendEvents
        split
        · apply tracked_stored
          intro entry listed
          obtain ⟨id,-,chosen⟩ := List.mem_filterMap.mp listed
          exact ordersIn_present stocked _ entry (List.mem_of_find?_eq_some chosen)
        · exact fun entry member => nomatch member
      have here := told event (List.mem_of_mem_take new)
      rw [←readied.orders] at here
      exact fun absent => here ((rows.same event.1).mp absent)

theorem receiveOrders_stocked (stocked : Stocked depot)
    (done : receiveBranchTransferBatchOrders now batchId orderIds requesterId depot = .ok commits) (stop : Nat) :
    Stocked (applyAll (commits.take stop) depot) := by
  obtain ⟨batch,selectedItems,remaining,stored,-,scanned,rfl⟩ := receiveOrders_parts done
  have received := receiveSelected_stocked stocked (by simp [stored]) (stocked.kept batchId batch stored) (receiveSelected_scanned scanned) now (requesterId.getD 0)
  match stop with
  | 0 => exact stocked
  | 1 => exact received
  | n+2 =>
    simp only [List.take_succ_cons,List.take_nil]
    exact orKeep_keeps received fun next done => (rebatch_stocked received done).1

theorem until_stocked (stocked : Stocked depot) (op : Op) (stop : Nat) : Stocked (op.performUntil stop depot) := by
  cases op with
  | create _ _ _ _ _ => exact until_keeps rfl stop stocked fun next done => create_stocked stocked done
  | updateFull _ _ _ _ => exact front_keeps stop stocked fun commits done => updateFull_stocked stocked done stop
  | sellOrder _ _ _ _ _ => exact until_keeps rfl stop stocked fun next done => sellOrder_stocked stocked done
  | partlySellOrder _ _ _ _ _ _ => exact until_keeps rfl stop stocked fun next done => partlySellOrder_stocked stocked done
  | cancelOrder _ _ _ _ _ => exact until_keeps rfl stop stocked fun next done => cancelOrder_stocked stocked done
  | rollback _ _ _ _ _ => exact until_keeps rfl stop stocked fun next done => rollback_stocked stocked done
  | markByProvider _ _ _ => exact until_keeps rfl stop stocked fun next done => markByProvider_stocked stocked done
  | markReturned _ _ => exact until_keeps rfl stop stocked fun next done => markReturned_stocked stocked done
  | handover _ _ _ _ _ => exact until_keeps rfl stop stocked fun next done => handover_stocked stocked done
  | createTransfer _ _ => exact until_keeps rfl stop stocked fun next done => (createTransfer_stocked stocked done).1
  | createReturn _ _ => exact until_keeps rfl stop stocked fun next done => (createReturn_stocked stocked done).1
  | bulkAssign _ _ _ _ => exact until_keeps rfl stop stocked fun next done => bulkAssign_stocked stocked done
  | bulkRemove _ _ _ => exact until_keeps rfl stop stocked fun next done => bulkRemove_stocked stocked done
  | send now batchId random input =>
    refine front_keeps stop stocked fun commits done => ?_
    obtain ⟨batch,stored,-,-,sent⟩ := sendBranch_parts done
    exact send_stocked stocked (by simp [stored]) (stocked.kept batchId batch stored) sent stop
  | receive now batchId requesterId =>
    refine until_keeps rfl stop stocked fun next done => ?_
    obtain ⟨batch,stored,-,rfl⟩ := receive_parts done
    exact receiveBatch_stocked stocked (by simp [stored]) (stocked.kept batchId batch stored) now (requesterId.getD 0)
  | receiveOrders _ _ _ _ => exact front_keeps stop stocked fun commits done => receiveOrders_stocked stocked done stop
  | cancelBatch now batchId reason =>
    refine until_keeps rfl stop stocked fun next done => ?_
    obtain ⟨batch,stored,-,-,rfl⟩ := cancel_parts done
    exact cancelBatch_stocked stocked (by simp [stored]) (stocked.kept batchId batch stored) now
  | cancelBatches _ _ _ => exact until_keeps rfl stop stocked fun next done => cancelBatches_stocked stocked done

theorem perform_stocked (stocked : Stocked depot) (op : Op) : Stocked (op.perform depot) := by
  obtain ⟨stop,same⟩ := perform_until op depot
  rw [same]
  exact until_stocked stocked op stop
theorem reached_stocked (ops : List Op) : Stocked (performAll emptyDepot ops) := by
  suffices each : ∀ depot,Stocked depot → Stocked (performAll depot ops) from each _ stocked_empty
  induction ops with
  | nil => exact fun _ stocked => stocked
  | cons op rest ih => exact fun depot stocked => ih _ (perform_stocked stocked op)

end Elchi.Batches
