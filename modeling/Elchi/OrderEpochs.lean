import Elchi.OrderPlans
namespace Elchi.Orders
open RowLock

abbrev OrderCommit := Commit OrderRow OrderEvent Note

def statusAt (table : Table OrderRow) (id : Nat) : Option OrderStatus := (table.row id).map (·.order.status)
def leavesWaiting (id : Nat) (commit : OrderCommit) : Bool :=
  statusAt commit.before id == some .waiting && statusAt commit.after id != some .waiting
def leavesSold (id : Nat) (commit : OrderCommit) : Bool :=
  (statusAt commit.before id).any isSold && !(statusAt commit.after id).any isSold

def OrderEvent.ofSale : OrderEvent → Bool
  | .balance leg => leg.sourceType == .sell || leg.sourceType == .extraCost
  | .financialBalance _ source _ _ _ => source != .correction
  | .earningRecord _ _ _ _ => true
  | .earningRemove _ => false
def OrderEvent.ofReversal : OrderEvent → Bool
  | .balance leg => leg.sourceType == .correction
  | .financialBalance _ source _ _ _ => source == .correction
  | .earningRecord _ _ _ _ => false
  | .earningRemove _ => true

def Call.closesOrder : Call → Bool
  | .sell _ _ _ _ _ => true
  | .partlySell _ _ _ _ _ _ => true
  | .cancel _ _ _ _ _ => true
  | _ => false
def Call.isRollback : Call → Bool
  | .rollback _ _ _ _ _ => true
  | _ => false
def Call.Contends (id : Nat) : Call → Prop
  | .sell _ _ order _ _ => order = id
  | .partlySell _ _ order _ _ _ => order = id
  | .cancel _ _ order _ _ => order = id
  | .rollback _ _ order _ _ => order = id
  | _ => False

-- The sets of events a transaction enqueues: for a sale or a cancellation, and for the
-- reversal of a sale, which is a rollback that read the order in a sold state.
def postsSale (commit : OrderCommit) : Bool := commit.note.call.closesOrder || commit.entries.any fun entry => entry.2.ofSale
def reversesSale (commit : OrderCommit) : Bool :=
  (commit.note.call.isRollback || commit.entries.any fun entry => entry.2.ofReversal) &&
    commit.note.loaded.any fun order => isSold order.status

theorem contends_either {id : Nat} {call : Call} (contends : call.Contends id) :
    call.closesOrder = true ∧ call.isRollback = false ∨ call.closesOrder = false ∧ call.isRollback = true := by
  cases call with
  | sell => exact .inl ⟨rfl,rfl⟩
  | partlySell => exact .inl ⟨rfl,rfl⟩
  | cancel => exact .inl ⟨rfl,rfl⟩
  | rollback => exact .inr ⟨rfl,rfl⟩
  | _ => cases contends

-- The legs of one transaction differ from the leg they are made of in cashbox and amount only.
def Of (leg made : BalanceLeg) : Prop :=
  ∃ userId type amount operation,made = {leg with userId:=userId,cashboxType:=type,amount:=amount,operationType:=operation}

theorem movement_of {leg made : BalanceLeg} (userId : Nat) (type : CashboxType)
    (member : made ∈ movement {leg with userId:=userId,cashboxType:=type} signed) : Of leg made := by
  unfold movement at member
  split at member
  · exact ⟨_,_,_,_,List.mem_singleton.mp member⟩
  · split at member
    · exact ⟨_,_,_,_,List.mem_singleton.mp member⟩
    · cases member

theorem codLegs_of {leg made : BalanceLeg} (member : made ∈ codLegs leg marketId courier branch marketAmount courierAmount branchAmount) :
    Of leg made := by
  simp only [codLegs,List.mem_append] at member
  rcases member with (market | held) | kept
  · exact movement_of _ _ market
  · cases courier with
    | none => cases held
    | some courierId => exact movement_of _ _ held
  · cases branch with
    | none => cases kept
    | some branchId => exact movement_of _ _ kept

theorem extraCostLegs_of {leg made : BalanceLeg} (member : made ∈ extraCostLegs leg marketId actor extraCost) : Of leg made := by
  unfold extraCostLegs at member
  split at member
  · rcases List.mem_cons.mp member with rfl | rest
    · exact ⟨_,_,_,_,rfl⟩
    · cases actor with
      | none => cases rest
      | some expense => exact ⟨_,_,_,_,List.mem_singleton.mp rest⟩
  · cases member

theorem rollbackExtra_of {leg made : BalanceLeg} (member : made ∈ rollbackExtra leg marketId actor marketCost actorCost) :
    Of leg made := by
  rcases List.mem_append.mp member with market | held
  · exact movement_of _ _ market
  · cases actor with
    | none => cases held
    | some expense => exact movement_of _ _ held

theorem Of.source {leg made : BalanceLeg} (of : Of leg made) : made.sourceType = leg.sourceType := by
  obtain ⟨_,_,_,_,rfl⟩ := of
  rfl
theorem Of.comment {leg made : BalanceLeg} (of : Of leg made) : made.comment = leg.comment := by
  obtain ⟨_,_,_,_,rfl⟩ := of
  rfl

theorem locks_row {held : List (Held OrderRow OrderEvent)} {id : Nat} (locked : Locks held id stored) (sees : Sees held before) :
    Table.row before id = some stored := by
  obtain ⟨h,inHeld,rfl,shown⟩ := locked
  rw [sees h inHeld,shown]

theorem statusAt_applied (before : Table OrderRow) (writes : List (Write OrderRow)) (key : Nat) :
    statusAt (applyWrites before writes) key = (written writes key (before.row key)).map (·.order.status) := by
  rw [statusAt,applyWrites_row]

-- The status a save of one row leaves, under its key and under the others.
theorem update_status (before : Table OrderRow) {id : Nat} (here : before.row id = some stored) (save : OrderRow → OrderRow) :
    statusAt (applyWrites before [.update id save]) id = some (save stored).order.status := by
  simp [statusAt_applied,written_cons,Write.key,Write.result,here]
theorem update_elsewhere (before : Table OrderRow) {id : Nat} (save : OrderRow → OrderRow) (other : key ≠ id) :
    statusAt (applyWrites before [.update id save]) key = statusAt before key := by
  rw [statusAt_applied]
  simp [written_cons,Write.key,Ne.symm other,statusAt]

-- Deleting the merged children saves their own statuses; the order itself is saved last.
theorem rollback_after (before : Table OrderRow) {id : Nat} (here : before.row id = some stored) (now : Nat) (children : Table OrderRow)
    (loaded : Order) (items : List OrderItem) (updated : Order) :
    statusAt (applyWrites before (rollbackWrites now id children loaded items updated)) id = some updated.status := by
  rw [statusAt_applied,rollbackWrites,written_append]
  cases current : written (children.map (deleteChild now)) id (before.row id) with
  | none => exact absurd current (written_present _ (by simp [here]))
  | some row => simp [written_cons,Write.key,Write.result,rollbackRow]

theorem sold_not_waiting (sold : isSold status = true) : status ≠ .waiting := by
  rintro rfl
  cases sold

theorem transaction_closes {held : List (Held OrderRow OrderEvent)} {id : Nat} (made : Transaction held note writes entries)
    (sees : Sees held before) (contends : note.call.Contends id) (closes : note.call.closesOrder = true) :
    statusAt before id = some .waiting ∧ ∃ status,statusAt (applyWrites before writes) id = some status ∧ status ≠ .waiting := by
  cases made with
  | sell planned locked waiting passed =>
    cases contends
    have here := locks_row locked sees
    obtain ⟨status,set,sold⟩ := sellPlan_status planned
    refine ⟨by simp [statusAt,here,waiting],status,?_,sold_not_waiting sold⟩
    rw [update_status before here]
    simp [soldRow,saveRow,(updateOrder_parts passed).1,set]
  | partlySell planned locked waiting passed apart childNew =>
    cases contends
    have here := locks_row locked sees
    obtain ⟨status,set,sold⟩ := partlySellPlan_status planned
    refine ⟨by simp [statusAt,here,waiting],status,?_,sold_not_waiting sold⟩
    rw [statusAt_applied]
    simp [written_cons,Write.key,Write.result,here,apart,partlySoldRow,(updateOrder_parts passed).1,set]
  | cancel planned locked waiting passed =>
    cases contends
    have here := locks_row locked sees
    obtain ⟨-,_,_,_,-,-,-,set,-⟩ := cancelPlan_parts planned
    refine ⟨by simp [statusAt,here,waiting],.cancelled,?_,by decide⟩
    rw [update_status before here]
    simp [saveRow,(updateOrder_parts passed).1,set]
  | _ => cases closes

theorem transaction_rolls_back {held : List (Held OrderRow OrderEvent)} {id : Nat} (made : Transaction held note writes entries)
    (sees : Sees held before) (contends : note.call.Contends id) (rolls : note.call.isRollback = true) :
    ∃ loaded status,note.loaded = some loaded ∧ statusAt before id = some loaded.status ∧
      statusAt (applyWrites before writes) id = some status ∧ (status = .waiting ∨ status = .cancelled ∧ isSold loaded.status = false) := by
  cases made with
  | rollback target allowed planned locked unchanged passed merged =>
    cases contends
    have here := locks_row locked sees
    have reached := rollback_status planned passed
    rw [unchanged] at reached
    exact ⟨_,_,rfl,by simp [statusAt,here,unchanged],rollback_after before here _ _ _ _ _,reached⟩
  | _ => cases rolls

theorem closes_read_waiting {held : List (Held OrderRow OrderEvent)} (made : Transaction held note writes entries)
    (closes : note.call.closesOrder = true) : ∃ loaded,note.loaded = some loaded ∧ loaded.status = .waiting := by
  cases made with
  | sell planned locked waiting passed => exact ⟨_,rfl,(sellPlan_parts planned).1⟩
  | partlySell planned locked waiting passed apart childNew => exact ⟨_,rfl,(partlySellPlan_parts planned).1⟩
  | cancel planned locked waiting passed => exact ⟨_,rfl,(cancelPlan_parts planned).1⟩
  | _ => cases closes

theorem numbered_source {leg : BalanceLeg} (member : leg ∈ numbered epoch legs) : ∃ made ∈ legs,leg.sourceType = made.sourceType := by
  obtain ⟨entry,inside,rfl⟩ := List.mem_map.mp member
  exact ⟨entry.1,(List.mem_zipIdx' inside).2 ▸ List.getElem_mem _,rfl⟩

theorem reversal_source {leg : BalanceLeg} {id : Nat}
    (member : leg ∈ (reversal lookups requester id order target requestId courierId parties).legs) : leg.sourceType = .correction := by
  obtain ⟨made,inside,same⟩ := numbered_source member
  rw [same]
  rcases List.mem_append.mp inside with extra | cod
  · exact (rollbackExtra_of extra).source
  · simp only [reversal] at cod
    split at cod
    · exact (codLegs_of cod).source
    · cases cod

theorem unsold_events {id : Nat} (unsold : isSold after.status = false) (member : event ∈ statusEvents id before after) :
    event = .earningRemove id := by
  unfold statusEvents financeEvents at member
  split at member
  · cases member
  · rw [unsold,Bool.false_and,if_neg Bool.false_ne_true] at member
    split at member
    · exact List.mem_singleton.mp member
    · cases member

-- A rollback enqueues no event of a sale.
theorem rollback_no_sale {held : List (Held OrderRow OrderEvent)} (made : Transaction held note writes entries)
    (rolls : note.call.isRollback = true) : ∀ entry ∈ entries,entry.2.ofSale = false := by
  cases made with
  | rollback target allowed planned locked unchanged passed merged =>
    have reached := rollback_status planned passed
    obtain ⟨courierId,parties,-,-,rfl⟩ := rollbackPlan_parts planned
    intro entry member
    obtain ⟨event,inside,rfl⟩ := List.mem_map.mp member
    rcases List.mem_append.mp inside with planned | moved
    · simp only [RollbackPlan.events,List.mem_append,List.mem_map] at planned
      rcases planned with (⟨leg,first,rfl⟩ | recorded) | ⟨leg,second,rfl⟩
      · simp [OrderEvent.ofSale,reversal_source (List.mem_of_mem_take first)]
      · simp only [reversal] at recorded
        split at recorded
        · cases List.mem_singleton.mp recorded
          rfl
        · cases recorded
      · simp [OrderEvent.ofSale,reversal_source (List.mem_of_mem_drop second)]
    · rw [unsold_events _ moved]
      · rfl
      · rcases reached with back | ⟨cancelled,-⟩
        · rw [back]
          rfl
        · rw [cancelled]
          rfl
  | _ => cases rolls

-- One order under concurrent sales, cancellations and rollbacks: its log of commits.
structure Epochs (id : Nat) (first last : Table OrderRow) (log : List OrderCommit) : Prop where
  history : Replays first log last
  sales : (log.filter postsSale).Sublist (log.filter (leavesWaiting id))
  reversals : (log.filter reversesSale).Sublist (log.filter (leavesSold id))
  rechecked : ∀ commit ∈ log,∃ loaded stored,commit.note.loaded = some loaded ∧ Locks commit.held id stored ∧
    commit.before.row id = some stored ∧ stored.order.status = loaded.status
  between : ∀ left sale middle next right,log = left ++ sale :: (middle ++ next :: right) → postsSale sale = true → postsSale next = true →
    ∃ back ∈ middle,back.note.call.isRollback = true ∧ statusAt back.after id = some .waiting

theorem filter_implies {test goal : α → Bool} {list : List α} (implies : ∀ x ∈ list,test x = true → goal x = true) :
    (list.filter test).Sublist (list.filter goal) := by
  have same : list.filter test = (list.filter goal).filter test := by
    rw [List.filter_filter]
    apply List.filter_congr
    intro x member
    cases holds : test x with
    | true => simp [implies x member holds]
    | false => rfl
  rw [same]
  exact List.filter_sublist

theorem posts_leaves {id : Nat} {commit : OrderCommit}
    (made : Transaction commit.held commit.note commit.writes commit.entries) (sees : Sees commit.held commit.before)
    (contends : commit.note.call.Contends id) (posts : postsSale commit = true) : leavesWaiting id commit = true := by
  have closes : commit.note.call.closesOrder = true := by
    rcases contends_either contends with ⟨closes,-⟩ | ⟨-,rolls⟩
    · exact closes
    · simp only [postsSale,Bool.or_eq_true,List.any_eq_true] at posts
      rcases posts with closes | ⟨entry,member,sale⟩
      · exact closes
      · rw [rollback_no_sale made rolls entry member] at sale
        cases sale
  obtain ⟨waiting,status,after,different⟩ := transaction_closes made sees contends closes
  simp [leavesWaiting,waiting,Commit.after,after,different]

theorem reverses_leaves {id : Nat} {commit : OrderCommit} (made : Transaction commit.held commit.note commit.writes commit.entries)
    (sees : Sees commit.held commit.before) (contends : commit.note.call.Contends id) (reverses : reversesSale commit = true) :
    leavesSold id commit = true := by
  simp only [reversesSale,Bool.and_eq_true] at reverses
  rcases contends_either contends with ⟨closes,-⟩ | ⟨-,rolls⟩
  · obtain ⟨loaded,read,waiting⟩ := closes_read_waiting made closes
    have sold := reverses.2
    rw [read,Option.any_some,waiting] at sold
    cases sold
  · obtain ⟨loaded,status,read,before,after,reached⟩ := transaction_rolls_back made sees contends rolls
    have sold : isSold loaded.status = true := by simpa [read] using reverses.2
    rcases reached with rfl | ⟨-,unsold⟩
    · simp [leavesSold,before,Commit.after,after,sold]
      rfl
    · rw [sold] at unsold
      cases unsold

theorem rechecked_row {held : List (Held OrderRow OrderEvent)} {id : Nat} (made : Transaction held note writes entries)
    (sees : Sees held before) (contends : note.call.Contends id) : ∃ loaded stored,note.loaded = some loaded ∧ Locks held id stored ∧
      before.row id = some stored ∧ stored.order.status = loaded.status := by
  cases made with
  | sell planned locked waiting passed =>
    cases contends
    exact ⟨_,_,rfl,locked,locks_row locked sees,waiting.trans (sellPlan_parts planned).1.symm⟩
  | partlySell planned locked waiting passed apart childNew =>
    cases contends
    exact ⟨_,_,rfl,locked,locks_row locked sees,waiting.trans (partlySellPlan_parts planned).1.symm⟩
  | cancel planned locked waiting passed =>
    cases contends
    exact ⟨_,_,rfl,locked,locks_row locked sees,waiting.trans (cancelPlan_parts planned).1.symm⟩
  | rollback target allowed planned locked unchanged passed merged =>
    cases contends
    exact ⟨_,_,rfl,locked,locks_row locked sees,unchanged⟩
  | _ => cases contends

-- After a sale the order is out of WAITING, before the next one it is in it again: some commit
-- in between brought it back, and only a rollback does.
theorem sale_between {id : Nat} {left middle right : List OrderCommit} {sale next : OrderCommit} {first last : Table OrderRow}
    (path : Replays first (left ++ sale :: (middle ++ next :: right)) last)
    (made : ∀ commit ∈ left ++ sale :: (middle ++ next :: right),commit.note.call.Contends id ∧
      Transaction commit.held commit.note commit.writes commit.entries ∧ Sees commit.held commit.before)
    (posts : postsSale sale = true) (again : postsSale next = true) :
    ∃ back ∈ middle,back.note.call.isRollback = true ∧ statusAt back.after id = some .waiting := by
  obtain ⟨start,-,path⟩ := path.split
  obtain ⟨stop,between,ends⟩ := path.2.split
  obtain ⟨contendsSale,madeSale,seesSale⟩ := made sale (by simp)
  obtain ⟨contendsNext,madeNext,seesNext⟩ := made next (by simp)
  have gone := posts_leaves madeSale seesSale contendsSale posts
  have returned := posts_leaves madeNext seesNext contendsNext again
  simp only [leavesWaiting,Bool.and_eq_true,beq_iff_eq,bne_iff_ne] at gone returned
  rw [ends.1] at returned
  obtain ⟨back,member,before,after⟩ := between.crossing (fun table => statusAt table id = some .waiting) gone.2 returned.1
  obtain ⟨contends,madeBack,sees⟩ := made back (by simp [member])
  refine ⟨back,member,?_,after⟩
  rcases contends_either contends with ⟨closes,-⟩ | ⟨-,rolls⟩
  · exact absurd (transaction_closes madeBack sees contends closes).1 before
  · exact rolls

theorem one_sale_per_epoch {id : Nat} {table : Table OrderRow} (keyed : table.Keyed) (below : ∀ key ∈ table.map (·.1),key < nextId)
    {calls : List Call} (contend : ∀ call ∈ calls,call.Contends id) (turns : List Turn) :
    Epochs id table (serve table nextId calls turns).table (serve table nextId calls turns).log ∧
    ∀ who session error,(serve table nextId calls turns).sessions[who]? = some session → session.prog = .done (.error error) →
      ∀ commit ∈ (serve table nextId calls turns).log,commit.who ≠ who := by
  have sound := serve_sound keyed below calls turns
  have made : ∀ commit ∈ (serve table nextId calls turns).log,commit.note.call.Contends id ∧
      Transaction commit.held commit.note commit.writes commit.entries ∧ Sees commit.held commit.before := by
    intro commit member
    obtain ⟨listed,transaction,sees⟩ := serve_logged keyed below member
    exact ⟨contend _ listed,transaction,sees⟩
  have history := serve_replays table nextId calls turns
  constructor
  · refine ⟨history,filter_implies ?_,filter_implies ?_,?_,?_⟩
    · intro commit member posts
      obtain ⟨contends,transaction,sees⟩ := made commit member
      exact posts_leaves transaction sees contends posts
    · intro commit member reverses
      obtain ⟨contends,transaction,sees⟩ := made commit member
      exact reverses_leaves transaction sees contends reverses
    · intro commit member
      obtain ⟨contends,transaction,sees⟩ := made commit member
      exact rechecked_row transaction sees contends
    · intro left sale middle next right same posts again
      rw [same] at history made
      exact sale_between history made posts again
  · intro who session error found finished commit member same
    have answered := sound.safe who session found
    rw [finished] at answered
    have none := answered error rfl
    have noted : commit.note ∈ (serve table nextId calls turns).notes who :=
      List.mem_filterMap.mpr ⟨commit,member,by simp [same]⟩
    rw [none] at noted
    cases noted

-- One order of 100 000 soum on its courier's post, at a branch that is not the head office.
def sampleOrder : Order :=
  {marketId:=1,customerId:=2,productQuantity:=1,whereDeliver:=.center,totalPrice:=10000000,marketTariff:=none,courierTariff:=none,
   courierShare:=none,branchShare:=none,branchCashboxAmount:=none,toBePaid:=0,paidAmount:=0,status:=.waiting,comment:=none,
   operator:=none,operatorId:=none,postId:=some 5,canceledPostId:=none,returnRequested:=false,proofFiles:=none,soldAt:=none,
   districtId:=none,regionId:=none,branchId:=some 3,homeBranchId:=none,currentBatchId:=none,courierId:=some 7,assignedAt:=none,
   holderType:=.courier,holderBranchId:=some 3,holderCourierId:=some 7,lastHandoverAt:=none,lastHandoverBy:=none,
   returnReason:=none,address:=none,qrCodeToken:=none,parentOrderId:=none,externalId:=none,source:=.internal,isDeleted:=false,
   deletedAt:=none,createdAt:=0,updatedAt:=0}
def sampleLookups (marketTariff : Int) (now : Nat) : Lookups :=
  {posts:=fun _ => some (some 7),markets:=fun _ => some ⟨some 4000000,some marketTariff,[]⟩,
   couriers:=fun _ => some ⟨some 2000000,some 1500000,some .perOrder⟩,users:=fun _ => none,branches:=fun _ => none,
   cashboxes:=fun _ _ => some 0,extraCosts:=fun _ _ => none,hqBranchId:=some 9,wasSentFromHqToBranch:=fun _ => false,
   fileExists:=fun _ => true,now:=now}
def sampleCourier : Requester := ⟨7,[.courier],some 3⟩
def sampleTable : Table OrderRow := [(11,⟨sampleOrder,[],none⟩)]

-- The courier's app sends the sale twice, and both requests read the order before either locks it.
def twoSales : List Call :=
  [.sell (sampleLookups 3000000 1000) sampleCourier 11 {} (some "a"),.sell (sampleLookups 3000000 1001) sampleCourier 11 {} (some "b")]
def twoSalesTurns : List Turn :=
  [.step 0 0,.step 1 0,.step 0 0,.step 1 0,.step 0 0,.step 0 0,.step 1 0,.step 1 0]

theorem one_sale_per_epoch_two_sales :
    (serve sampleTable 12 twoSales twoSalesTurns).log.length = 1 ∧
    statusAt (serve sampleTable 12 twoSales twoSalesTurns).table 11 = some .sold ∧
    Epochs 11 sampleTable (serve sampleTable 12 twoSales twoSalesTurns).table (serve sampleTable 12 twoSales twoSalesTurns).log := by
  refine ⟨by decide,by decide,(one_sale_per_epoch (by decide) (by decide) ?_ twoSalesTurns).1⟩
  intro call member
  simp only [twoSales,List.mem_cons,List.not_mem_nil,or_false] at member
  rcases member with rfl | rfl
  · rfl
  · rfl

end Elchi.Orders
