import Elchi.DepotRows
import Elchi.OrderPlans
namespace Elchi.Batches
open Orders RowLock

-- What an order's life is told by: its status, who holds it, and whether it is deleted.
structure Standing where
  status : OrderStatus
  holder : Holder
  branchId : Option Nat
  courierId : Option Nat
  isDeleted : Bool
  deletedAt : Option Nat
deriving DecidableEq, Repr
def standing (order : Order) : Standing :=
  ⟨order.status,holderOf order,order.branchId,order.courierId,order.isDeleted,order.deletedAt⟩

@[simp] theorem standing_saveOrder (now : Nat) (entity stored : Order) : standing (saveOrder now entity stored) = standing entity := by
  obtain ⟨time,same⟩ := saveOrder_parts now entity stored
  rw [same]
  rfl
@[simp] theorem standing_saveRow (now : Nat) (entity : Order) (stored : OrderRow) :
    standing (saveRow now entity stored).order = standing entity := standing_saveOrder now entity stored.order
@[simp] theorem standing_soldRow (now : Nat) (updated : Order) (settlement : OrderSettlement) (stored : OrderRow) :
    standing (soldRow now updated settlement stored).order = standing updated := standing_saveOrder now updated stored.order
@[simp] theorem standing_partlySoldRow (now : Nat) (updated : Order) (plan : PartlySalePlan) (stored : OrderRow) :
    standing (partlySoldRow now updated plan stored).order = standing updated :=
  Eq.trans rfl (standing_saveOrder now updated stored.order)
@[simp] theorem standing_rollbackRow (now : Nat) (children : Table OrderRow) (loaded : Order) (items : List OrderItem) (updated : Order)
    (stored : OrderRow) : standing (rollbackRow now children loaded items updated stored).order = standing updated :=
  standing_saveOrder now updated _
theorem live_standing {order : Order} : live order = true ↔ (standing order).isDeleted = false ∧ (standing order).deletedAt = none := by
  simp [live,standing]

-- updateFull leaves the holder alone, or computes it from the branch and the courier it writes.
theorem updateOrder_keeps (passed : updateOrder lookups requesterId dto order = .ok updated) :
    isValidStatusTransition order.status updated.status = true ∧ updated.isDeleted = order.isDeleted ∧
      updated.deletedAt = order.deletedAt ∧ updated.branchId = dto.branchId.getD order.branchId ∧
      updated.courierId = dto.courierId.getD order.courierId ∧
      holderOf updated = if dto.recalculatesHolder then resolveHolderFromState lookups updated.branchId updated.courierId else holderOf order := by
  obtain ⟨rfl,valid⟩ := updateOrder_parts passed
  refine ⟨valid,?_⟩
  obtain ⟨time,actor,handed⟩ := handover_parts lookups requesterId order (dto.rehold lookups (dto.assign order))
  rw [updatedOrder,handed]
  unfold UpdateDto.rehold
  split
  · exact ⟨rfl,rfl,rfl,rfl,rfl⟩
  · exact ⟨rfl,rfl,rfl,rfl,rfl⟩

theorem create_parts (created : create lookups userBranch dto requester token depot = .ok next) :
    ∃ branchId,resolveBranchIdForOrder lookups userBranch dto.branchId requester = .ok branchId ∧
      next = depot.insertOrder ⟨createdOrder lookups dto requester branchId token,dto.items,none⟩ := by
  obtain ⟨branchId,resolved,rest⟩ := error_bind_parts created
  cases rest
  exact ⟨branchId,resolved,rfl⟩

-- The line items first, when there are new ones, then the order with its events.
def itemWrites (id : Nat) (edits : List (List OrderItem → List OrderItem)) : List (Write OrderRow) :=
  edits.map fun edit => .update id fun stored => {stored with items:=edit stored.items}
theorem updateFull_until {id : Nat} (done : updateFull lookups requesterId id dto depot = .ok commits) (stop : Nat) :
    ∃ row updated,depot.orders.row id = some row ∧ live row.order = true ∧ editOrder lookups requesterId id dto row = .ok updated ∧
      ∃ edits,applyAll (commits.take stop) depot = {depot with orders:=applyWrites depot.orders (itemWrites id edits)} ∨
        applyAll (commits.take stop) depot = depot.record id row.order (updateEntity dto updated)
          (applyWrites depot.orders (itemWrites id edits ++ [.update id (saveRow lookups.now (updateEntity dto updated))])) := by
  obtain ⟨row,found,rest⟩ := error_bind_parts done
  obtain ⟨updated,edited,rest⟩ := error_bind_parts rest
  obtain ⟨here,alive⟩ := findOrder_parts found
  refine ⟨row,updated,here,alive,edited,?_⟩
  dsimp only at rest
  split at rest
  · cases rest
    match stop with
    | 0 => exact ⟨[],.inl rfl⟩
    | n+1 => exact ⟨[],.inr (by rw [List.take_succ_cons,List.take_nil]; rfl)⟩
  · rename_i items _
    cases rest
    match stop with
    | 0 => exact ⟨[],.inl rfl⟩
    | 1 => exact ⟨[fun _ => []],.inl rfl⟩
    | 2 => exact ⟨[fun _ => [],(· ++ items)],.inl rfl⟩
    | n+3 =>
      refine ⟨[fun _ => [],(· ++ items)],.inr ?_⟩
      simp only [List.take_succ_cons,List.take_nil]
      rfl

theorem sellOrder_parts {id : Nat} (done : sellOrder lookups requester id dto requestId depot = .ok next) :
    ∃ row plan updated,depot.orders.row id = some row ∧ live row.order = true ∧
      sellPlan lookups requester id row.order dto requestId = .ok plan ∧
      updateOrder lookups (some requester.id) plan.update row.order = .ok updated ∧
      next = depot.record id row.order updated (applyWrites depot.orders [.update id (soldRow lookups.now updated plan.settlement)]) := by
  obtain ⟨row,found,rest⟩ := error_bind_parts done
  obtain ⟨plan,planned,rest⟩ := error_bind_parts rest
  obtain ⟨updated,passed,rest⟩ := error_bind_parts rest
  obtain ⟨here,alive⟩ := findOrder_parts found
  cases rest
  exact ⟨row,plan,updated,here,alive,planned,passed,rfl⟩

theorem partlySellOrder_parts {id : Nat} (done : partlySellOrder lookups requester id dto requestId token depot = .ok next) :
    ∃ row plan updated,depot.orders.row id = some row ∧ live row.order = true ∧
      partlySellPlan lookups requester id row dto requestId token = .ok plan ∧
      updateOrder lookups (some requester.id) plan.update row.order = .ok updated ∧
      next = (depot.record id row.order updated
        (applyWrites depot.orders [.update id (partlySoldRow lookups.now updated plan)])).insertOrder ⟨plan.child,plan.childItems,none⟩ := by
  obtain ⟨row,found,rest⟩ := error_bind_parts done
  obtain ⟨plan,planned,rest⟩ := error_bind_parts rest
  obtain ⟨updated,passed,rest⟩ := error_bind_parts rest
  obtain ⟨here,alive⟩ := findOrder_parts found
  cases rest
  exact ⟨row,plan,updated,here,alive,planned,passed,rfl⟩

theorem cancelOrder_parts {id : Nat} (done : cancelOrder lookups requester id dto requestId depot = .ok next) :
    ∃ row plan updated,depot.orders.row id = some row ∧ live row.order = true ∧
      cancelPlan lookups requester id row.order dto requestId = .ok plan ∧
      updateOrder lookups (some requester.id) plan.update row.order = .ok updated ∧
      next = depot.record id row.order updated (applyWrites depot.orders [.update id (saveRow lookups.now updated)]) := by
  obtain ⟨row,found,rest⟩ := error_bind_parts done
  obtain ⟨plan,planned,rest⟩ := error_bind_parts rest
  obtain ⟨updated,passed,rest⟩ := error_bind_parts rest
  obtain ⟨here,alive⟩ := findOrder_parts found
  cases rest
  exact ⟨row,plan,updated,here,alive,planned,passed,rfl⟩

theorem rollback_parts {id : Nat} (done : rollbackOrderToWaiting lookups requester id targetStatus requestId depot = .ok next) :
    ∃ row target plan items updated,depot.orders.row id = some row ∧ live row.order = true ∧
      rollbackPlan lookups requester id row.order target requestId = .ok plan ∧
      updateOrder lookups (some requester.id) plan.update row.order = .ok updated ∧
      next = depot.record id row.order updated (applyWrites depot.orders
        (rollbackWrites lookups.now id (byCreation (depot.orders.select (partialChild id))) row.order items updated)) := by
  obtain ⟨target,-,rest⟩ := error_bind_parts done
  obtain ⟨row,found,rest⟩ := error_bind_parts rest
  obtain ⟨_,-,rest⟩ := error_bind_parts rest
  obtain ⟨here,alive⟩ := findOrder_parts found
  split at rest
  · cases rest
  obtain ⟨plan,planned,rest⟩ := error_bind_parts rest
  obtain ⟨items,-,rest⟩ := error_bind_parts rest
  obtain ⟨updated,passed,rest⟩ := error_bind_parts rest
  cases rest
  exact ⟨row,target,plan,items,updated,here,alive,planned,passed,rfl⟩

theorem markByProvider_parts {id : Nat} (done : markByProvider now id action depot = .ok next) :
    ∃ row,depot.orders.row id = some row ∧ live row.order = true ∧
      (next = depot ∨ action.alreadyApplied row.order.status = false ∧ next = Depot.track
        {depot with orders:=applyWrites depot.orders [.update id (saveRow now (providerOrder now action row.order))]}
        (id,⟨some row.order.status,action.target⟩)) := by
  obtain ⟨row,found,rest⟩ := error_bind_parts done
  obtain ⟨here,alive⟩ := findOrder_parts found
  refine ⟨row,here,alive,?_⟩
  split at rest
  · cases rest
    exact .inl rfl
  · rename_i fresh
    cases rest
    exact .inr ⟨Bool.eq_false_iff.mpr fresh,rfl⟩

theorem markReturned_parts {id : Nat} (done : markReturnedToMarket lookups id depot = .ok next) :
    ∃ row,depot.orders.row id = some row ∧ live row.order = true ∧ row.order.status ≠ .returnedToMarket ∧
      next = closeCustody id row.order .returnedToMarket
        {depot with orders:=(Write.update id (saveRow lookups.now (returnedOrder row.order))).apply depot.orders} := by
  obtain ⟨row,found,rest⟩ := error_bind_parts done
  obtain ⟨here,alive⟩ := findOrder_parts found
  dsimp only at rest
  split at rest
  · cases rest
  rename_i notReturned
  split at rest
  · cases rest
  split at rest
  · cases rest
  split at rest
  · cases rest
  · cases rest
    exact ⟨row,here,alive,notReturned,rfl⟩

theorem completeHandover_parts (done : completeMarketCancelledHandover now requesterId marketId orderIds authorization depot = .ok next) :
    next = handOver now requesterId
      (depot.orders.select fun key row => orderIds.eraseDups.contains key && handoverReady marketId row.order) depot := by
  unfold completeMarketCancelledHandover at done
  dsimp only at done
  split at done
  · cases done
  obtain ⟨_,-,rest⟩ := error_bind_parts done
  split at rest
  · cases rest
  · cases rest
    rfl

-- The child of a partial sale is a cancelled order that gets its holder from its branch and courier.
theorem partlySellPlan_child {id : Nat} (planned : partlySellPlan lookups requester id row dto requestId token = .ok plan) :
    plan.child.status = .cancelled ∧ live plan.child = true ∧
      holderOf plan.child = resolveHolderFromState lookups plan.child.branchId plan.child.courierId := by
  obtain ⟨-,-,-,-,branchId,courierId,same⟩ := partlySellPlan_goods planned
  rw [same]
  exact ⟨rfl,rfl,rfl⟩

end Elchi.Batches
