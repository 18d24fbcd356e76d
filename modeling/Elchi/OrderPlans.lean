import Elchi.OrderCommits
namespace Elchi.Orders
open RowLock

theorem sellPlan_parts {id : Nat} (planned : sellPlan lookups requester id order dto requestId = .ok plan) :
    order.status = .waiting ∧ ∃ courierId parties finalComment proofFiles requestedPaid,
      resolveActorCourierId requester order (order.postId.bind lookups.posts) = .ok courierId ∧
      saleParties lookups requester order courierId = .ok parties ∧
      plan = salePlan lookups requester id order requestId courierId parties (sellTerms lookups requester order parties dto)
        "sotuvi" finalComment proofFiles (min (max requestedPaid 0) (sellTerms lookups requester order parties dto).net) lookups.now := by
  unfold sellPlan at planned
  split at planned
  · cases planned
  rename_i waiting
  split at planned
  · cases planned
  rename_i postId posted
  obtain ⟨courierId,actor,rest⟩ := error_bind_parts planned
  obtain ⟨parties,found,rest⟩ := error_bind_parts rest
  obtain ⟨proofFiles,-,rest⟩ := error_bind_parts rest
  dsimp only at rest
  split at rest
  · cases rest
  split at rest
  · cases rest
  refine ⟨not_not.mp waiting,courierId,parties,_,proofFiles,_,?_,found,(Except.ok.inj rest).symm⟩
  rw [posted]
  exact actor

theorem partlySellPlan_parts {id : Nat} (planned : partlySellPlan lookups requester id row dto requestId token = .ok plan) :
    row.order.status = .waiting ∧ ∃ courierId parties finalComment proofFiles requestedPaid soldAt,
      resolveActorCourierId requester row.order (row.order.postId.bind lookups.posts) = .ok courierId ∧
      saleParties lookups requester row.order courierId = .ok parties ∧
      plan.toSalePlan = partialSale (salePlan lookups requester id row.order requestId courierId parties
        (partlySellTerms lookups requester row.order parties dto) "qisman sotuvi" finalComment proofFiles
        (min (max requestedPaid 0) (partlySellTerms lookups requester row.order parties dto).net) soldAt) dto.totalPrice := by
  unfold partlySellPlan at planned
  dsimp only at planned
  split at planned
  · cases planned
  rename_i waiting
  split at planned
  · cases planned
  rename_i postId posted
  obtain ⟨courierId,actor,rest⟩ := error_bind_parts planned
  split at rest
  · cases rest
  split at rest
  · cases rest
  obtain ⟨parties,found,rest⟩ := error_bind_parts rest
  obtain ⟨proofFiles,-,rest⟩ := error_bind_parts rest
  obtain ⟨_,-,rest⟩ := error_bind_parts rest
  split at rest
  · cases rest
  · have exact := Except.ok.inj rest
    subst exact
    rw [posted]
    exact ⟨not_not.mp waiting,courierId,parties,_,proofFiles,_,_,actor,found,rfl⟩

-- What a partial sale decides about the goods.
theorem partlySellPlan_goods {id : Nat} (planned : partlySellPlan lookups requester id row dto requestId token = .ok plan) :
    checkPartlySellItems row.items dto.orderItemInfo = .ok () ∧ plan.soldQuantity = (dto.orderItemInfo.map PartlySellItem.quantity).sum.toNat ∧
    plan.soldItems = soldItems row.items dto.orderItemInfo ∧ plan.childItems = cancelledItems row.items dto.orderItemInfo ∧
    ∃ branchId courierId,plan.child = unsoldOrder lookups requester id row.order dto.totalPrice
      (cancelledItems row.items dto.orderItemInfo) branchId courierId token := by
  unfold partlySellPlan at planned
  dsimp only at planned
  split at planned
  · cases planned
  split at planned
  · cases planned
  obtain ⟨courierId,-,rest⟩ := error_bind_parts planned
  split at rest
  · cases rest
  split at rest
  · cases rest
  obtain ⟨parties,-,rest⟩ := error_bind_parts rest
  obtain ⟨proofFiles,-,rest⟩ := error_bind_parts rest
  obtain ⟨_,checked,rest⟩ := error_bind_parts rest
  split at rest
  · cases rest
  · have exact := Except.ok.inj rest
    subst exact
    exact ⟨checked,rfl,rfl,rfl,_,_,rfl⟩

theorem cancelPlan_parts {id : Nat} (planned : cancelPlan lookups requester id order dto requestId = .ok plan) :
    order.status = .waiting ∧ ∃ courierId finalComment proofFiles,
      resolveActorCourierId requester order (order.postId.bind lookups.posts) = .ok courierId ∧
      plan.extra = extraCostLegs (saleLeg id requester (resolveDedupEpoch lookups requestId) finalComment .extraCost proofFiles)
        order.marketId (some (actorExpense requester courierId)) (max (dto.extraCost.getD 0) 0) ∧
      plan.record = extraCostRecord id order.marketId .cancelExtraCost " cancel extra cost" (max (dto.extraCost.getD 0) 0) ∧
      plan.update.status = some .cancelled ∧ plan.update.recalculatesHolder = false := by
  unfold cancelPlan at planned
  split at planned
  · cases planned
  rename_i waiting
  split at planned
  · cases planned
  rename_i postId posted
  obtain ⟨courierId,actor,rest⟩ := error_bind_parts planned
  obtain ⟨proofFiles,-,rest⟩ := error_bind_parts rest
  dsimp only at rest
  split at rest
  · cases rest
  split at rest
  · cases rest
  split at rest
  · cases rest
  · have exact := Except.ok.inj rest
    subst exact
    rw [posted]
    exact ⟨not_not.mp waiting,courierId,_,proofFiles,actor,rfl,rfl,rfl,rfl⟩

theorem rollbackPlan_parts {id : Nat} (planned : rollbackPlan lookups requester id order target requestId = .ok plan) :
    ∃ courierId parties,resolveActorCourierId requester order (order.postId.bind lookups.posts) = .ok courierId ∧
      saleParties lookups requester order courierId = .ok parties ∧
      plan = reversal lookups requester id order target requestId courierId parties := by
  unfold rollbackPlan at planned
  obtain ⟨courierId,actor,rest⟩ := error_bind_parts planned
  obtain ⟨parties,found,rest⟩ := error_bind_parts rest
  split at rest
  · cases rest
  · exact ⟨courierId,parties,actor,found,(Except.ok.inj rest).symm⟩

-- updateFull on one order: which columns it writes is decided by the dto alone.
theorem updateOrder_parts (passed : updateOrder lookups requesterId dto order = .ok updated) :
    updated = updatedOrder lookups requesterId dto order ∧ isValidStatusTransition order.status updated.status = true := by
  unfold updateOrder at passed
  dsimp only at passed
  split at passed
  · rename_i valid
    have same := Except.ok.inj passed
    exact ⟨same.symm,same ▸ valid⟩
  · cases passed

theorem rehold_parts (dto : UpdateDto) (lookups : Lookups) (order : Order) : ∃ type branch courier,
    dto.rehold lookups order = {order with holderType:=type,holderBranchId:=branch,holderCourierId:=courier} := by
  unfold UpdateDto.rehold
  split
  · exact ⟨_,_,_,rfl⟩
  · exact ⟨order.holderType,order.holderBranchId,order.holderCourierId,rfl⟩

theorem handover_parts (lookups : Lookups) (requesterId : Option Nat) (before after : Order) : ∃ time actor,
    handover lookups requesterId before after = {after with lastHandoverAt:=time,lastHandoverBy:=actor} := by
  unfold handover
  split
  · exact ⟨_,_,rfl⟩
  · exact ⟨after.lastHandoverAt,after.lastHandoverBy,rfl⟩

theorem updatedOrder_parts (lookups : Lookups) (requesterId : Option Nat) (dto : UpdateDto) (order : Order) :
    ∃ type branch courier time actor,updatedOrder lookups requesterId dto order = {dto.assign order with
      holderType:=type,holderBranchId:=branch,holderCourierId:=courier,lastHandoverAt:=time,lastHandoverBy:=actor} := by
  obtain ⟨type,branch,courier,reheld⟩ := rehold_parts dto lookups (dto.assign order)
  obtain ⟨time,actor,handed⟩ := handover_parts lookups requesterId order (dto.rehold lookups (dto.assign order))
  refine ⟨type,branch,courier,time,actor,?_⟩
  rw [updatedOrder,handed,reheld]

theorem saveOrder_parts (now : Nat) (entity stored : Order) : ∃ time,saveOrder now entity stored = {entity with updatedAt:=time} := by
  unfold saveOrder
  split
  · rename_i same
    exact ⟨stored.updatedAt,same.symm⟩
  · exact ⟨now,rfl⟩

@[simp] theorem updatedOrder_status (lookups : Lookups) (requesterId : Option Nat) (dto : UpdateDto) (order : Order) :
    (updatedOrder lookups requesterId dto order).status = dto.status.getD order.status := by
  obtain ⟨_,_,_,_,_,same⟩ := updatedOrder_parts lookups requesterId dto order
  rw [same]
  rfl

@[simp] theorem updatedOrder_toBePaid (lookups : Lookups) (requesterId : Option Nat) (dto : UpdateDto) (order : Order) :
    (updatedOrder lookups requesterId dto order).toBePaid = dto.toBePaid.getD order.toBePaid := by
  obtain ⟨_,_,_,_,_,same⟩ := updatedOrder_parts lookups requesterId dto order
  rw [same]
  rfl

@[simp] theorem updatedOrder_paidAmount (lookups : Lookups) (requesterId : Option Nat) (dto : UpdateDto) (order : Order) :
    (updatedOrder lookups requesterId dto order).paidAmount = dto.paidAmount.getD order.paidAmount := by
  obtain ⟨_,_,_,_,_,same⟩ := updatedOrder_parts lookups requesterId dto order
  rw [same]
  rfl

@[simp] theorem saveOrder_toBePaid (now : Nat) (entity stored : Order) : (saveOrder now entity stored).toBePaid = entity.toBePaid := by
  obtain ⟨_,same⟩ := saveOrder_parts now entity stored
  rw [same]

@[simp] theorem saveOrder_paidAmount (now : Nat) (entity stored : Order) : (saveOrder now entity stored).paidAmount = entity.paidAmount := by
  obtain ⟨_,same⟩ := saveOrder_parts now entity stored
  rw [same]

@[simp] theorem saveOrder_status (now : Nat) (entity stored : Order) : (saveOrder now entity stored).status = entity.status := by
  obtain ⟨_,same⟩ := saveOrder_parts now entity stored
  rw [same]

theorem saleStatus_sold (net paid : Int) : isSold (saleStatus net paid) = true := by
  unfold saleStatus
  split
  · rfl
  · split
    · rfl
    · rfl

theorem sellPlan_status {id : Nat} (planned : sellPlan lookups requester id order dto requestId = .ok plan) :
    ∃ status,plan.update.status = some status ∧ isSold status = true := by
  obtain ⟨-,_,_,_,_,_,-,-,rfl⟩ := sellPlan_parts planned
  exact ⟨_,rfl,saleStatus_sold _ _⟩

theorem partlySellPlan_status {id : Nat} (planned : partlySellPlan lookups requester id row dto requestId token = .ok plan) :
    ∃ status,plan.update.status = some status ∧ isSold status = true := by
  obtain ⟨-,_,_,_,_,_,_,-,-,same⟩ := partlySellPlan_parts planned
  rw [same]
  exact ⟨_,rfl,saleStatus_sold _ _⟩

-- A rollback leads to WAITING, or from an unsold status to CANCELLED.
theorem rollback_status {id : Nat} (planned : rollbackPlan lookups requester id loaded target requestId = .ok plan)
    (passed : updateOrder lookups (some requester.id) plan.update stored = .ok updated) :
    updated.status = .waiting ∨ updated.status = .cancelled ∧ isSold stored.status = false := by
  obtain ⟨courierId,parties,-,-,rfl⟩ := rollbackPlan_parts planned
  obtain ⟨same,valid⟩ := updateOrder_parts passed
  have written : updated.status = .waiting ∨ updated.status = .cancelled := by
    rw [same,updatedOrder_status]
    cases target with
    | waiting =>
      left
      simp only [reversal,rollbackUpdate]
      split
      · rfl
      · rfl
    | cancelled => exact .inr rfl
    | cancelledSent => exact .inr rfl
  rcases written with back | cancelled
  · exact .inl back
  · right
    refine ⟨cancelled,?_⟩
    rw [cancelled] at valid
    cases status : stored.status <;> rw [status] at valid <;> first | rfl | exact absurd valid (by decide)

theorem actorExpense_type (requester : Requester) (courierId : Nat) : (actorExpense requester courierId).2 ≠ .forMarket := by
  unfold actorExpense
  split
  · simp
  · simp

-- The cashbox legs among the events a request enqueues.
theorem legsOf_append (left right : List OrderEvent) : legsOf (left ++ right) = legsOf left ++ legsOf right := by
  simp [legsOf]
theorem legsOf_balance (legs : List BalanceLeg) : legsOf (legs.map .balance) = legs := by
  induction legs with
  | nil => rfl
  | cons leg rest ih => simpa [legsOf,OrderEvent.leg?] using ih
theorem legsOf_status (id : Nat) (before after : Order) : legsOf (statusEvents id before after) = [] := by
  unfold statusEvents financeEvents
  split
  · rfl
  · split
    · cases after.operatorId with
      | none =>
        dsimp only
        split
        · rfl
        · rfl
      | some operatorId =>
        dsimp only
        split
        · rfl
        · rfl
    · split
      · rfl
      · rfl
theorem legsOf_reversal (lookups : Lookups) (requester : Requester) (id : Nat) (order : Order) (target : RollbackTarget)
    (requestId : Option String) (courierId : Nat) (parties : SaleParties) :
    legsOf (reversal lookups requester id order target requestId courierId parties).events =
      (reversal lookups requester id order target requestId courierId parties).legs := by
  have record : legsOf (reversal lookups requester id order target requestId courierId parties).record = [] := by
    simp only [reversal]
    split
    · rfl
    · rfl
  rw [RollbackPlan.events,legsOf_append,legsOf_append,legsOf_balance,legsOf_balance,record,List.append_nil,List.take_append_drop]
theorem legsOf_own (id : Nat) (events : List OrderEvent) : (events.map fun event => (id,event)).map (·.2) = events := by
  simp [Function.comp_def]

theorem legsOf_sale {id : Nat} : legsOf
    (salePlan lookups requester id order requestId courierId parties terms kind comment files paid soldAt).events =
    (salePlan lookups requester id order requestId courierId parties terms kind comment files paid soldAt).legs := by
  have record : legsOf (salePlan lookups requester id order requestId courierId parties terms kind comment files paid soldAt).record = [] := by
    simp only [salePlan,extraCostRecord]
    split
    · rfl
    · rfl
  rw [SalePlan.events,legsOf_append,legsOf_balance,record,List.append_nil]

end Elchi.Orders
