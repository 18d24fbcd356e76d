import Elchi.OrderEpochs
import Elchi.OrderSolo
namespace Elchi.Orders
open RowLock

-- What a partial sale and the rollback after it ought to make of an order: `parent` and `child`
-- stand after the sale, `after` and the table after the rollback.
structure RoundTrip (id : Nat) (order parent child after : OrderRow) (table : Table OrderRow) : Prop where
  goods : ∀ productId,itemTotal parent.items productId + itemTotal child.items productId = itemTotal order.items productId
  price : parent.order.totalPrice + child.order.totalPrice = order.order.totalPrice
  items : after.items = order.items
  productQuantity : after.order.productQuantity = order.order.productQuantity
  totalPrice : after.order.totalPrice = order.order.totalPrice
  childless : ∀ key row,table.row key = some row → row.order.parentOrderId = some id → row.order.isDeleted = true

section Goods
variable {existing : List OrderItem} {info : List PartlySellItem}

-- A selection that passed the checks: every line has a quantity, none above its own, and some
-- line is cut.
structure Selects (existing : List OrderItem) (info : List PartlySellItem) : Prop where
  lines : ∀ item ∈ existing,∃ quantity,requestedQuantity info item = some quantity ∧ 0 ≤ quantity ∧ quantity ≤ item.quantity
  cut : cancelledItems existing info ≠ []

theorem checkPartlySellItems_selects (checked : checkPartlySellItems existing info = .ok ()) : Selects existing info := by
  unfold checkPartlySellItems at checked
  split at checked
  · cases checked
  rename_i positive
  split at checked
  · cases checked
  split at checked
  · cases checked
  rename_i fitting
  split at checked
  · cases checked
  split at checked
  · cases checked
  rename_i cut
  refine ⟨?_,cut⟩
  intro item member
  have line := List.filterMap_eq_nil_iff.mp fitting item member
  cases asked : requestedQuantity info item with
  | none => simp [asked] at line
  | some quantity =>
    simp only [asked] at line
    obtain ⟨requested,found,rfl⟩ := Option.map_eq_some_iff.mp asked
    have listed := List.mem_of_find?_eq_some found
    refine ⟨requested.quantity,rfl,?_,?_⟩
    · by_contra negative
      exact positive (List.any_eq_true.mpr ⟨requested,listed,by simpa using negative⟩)
    · by_contra above
      rw [if_pos (by omega)] at line
      cases line

theorem itemTotal_cons (item : OrderItem) (rest : List OrderItem) (productId : Nat) :
    itemTotal (item :: rest) productId = (if item.productId = productId then item.quantity else 0) + itemTotal rest productId := by
  unfold itemTotal
  by_cases same : item.productId = productId
  · simp [same]
  · simp [same]

-- Line by line the sold and the unsold part make up the line.
theorem split_goods (lines : ∀ item ∈ existing,∃ quantity,requestedQuantity info item = some quantity ∧ 0 ≤ quantity ∧ quantity ≤ item.quantity)
    (productId : Nat) : itemTotal (soldItems existing info) productId + itemTotal (cancelledItems existing info) productId =
      itemTotal existing productId := by
  induction existing with
  | nil => rfl
  | cons item rest ih =>
    have tail := ih fun other member => lines other (.tail _ member)
    obtain ⟨quantity,asked,least,most⟩ := lines item List.mem_cons_self
    simp only [soldItems,cancelledItems,List.map_cons,List.filterMap_cons,asked] at tail ⊢
    by_cases reduced : quantity < item.quantity
    · rw [if_pos reduced,if_pos (by omega)]
      simp only [itemTotal_cons]
      split
      · omega
      · omega
    · rw [if_neg reduced,if_neg (by omega)]
      simp only [itemTotal_cons]
      omega

-- A line that is cut stays cut among the sold ones.
theorem soldItems_differ (selects : Selects existing info) : soldItems existing info ≠ existing := by
  intro same
  apply selects.cut
  rw [cancelledItems,List.filterMap_eq_nil_iff]
  intro item member
  obtain ⟨quantity,asked,least,most⟩ := selects.lines item member
  have kept := List.map_eq_map_iff.mp ((soldItems.eq_1 existing info).symm.trans (same.trans (List.map_id existing).symm)) item member
  simp only [asked,id_eq] at kept ⊢
  split at kept
  · have equal := congrArg OrderItem.quantity kept
    dsimp only at equal
    rw [if_neg (by omega)]
  · rw [if_neg (by omega)]

end Goods

@[simp] theorem updatedOrder_totalPrice (lookups : Lookups) (requesterId : Option Nat) (dto : UpdateDto) (order : Order) :
    (updatedOrder lookups requesterId dto order).totalPrice = dto.totalPrice.getD order.totalPrice := by
  obtain ⟨_,_,_,_,_,same⟩ := updatedOrder_parts lookups requesterId dto order
  rw [same]
  rfl

@[simp] theorem updatedOrder_productQuantity (lookups : Lookups) (requesterId : Option Nat) (dto : UpdateDto) (order : Order) :
    (updatedOrder lookups requesterId dto order).productQuantity = order.productQuantity := by
  obtain ⟨_,_,_,_,_,same⟩ := updatedOrder_parts lookups requesterId dto order
  rw [same]
  rfl

@[simp] theorem saveOrder_totalPrice (now : Nat) (entity stored : Order) : (saveOrder now entity stored).totalPrice = entity.totalPrice := by
  obtain ⟨_,same⟩ := saveOrder_parts now entity stored
  rw [same]

@[simp] theorem saveOrder_productQuantity (now : Nat) (entity stored : Order) :
    (saveOrder now entity stored).productQuantity = entity.productQuantity := by
  obtain ⟨_,same⟩ := saveOrder_parts now entity stored
  rw [same]

theorem rollbackUpdate_totalPrice (requester : Requester) (order : Order) (target : RollbackTarget) :
    (rollbackUpdate requester order target).totalPrice = none := by
  cases target with
  | waiting =>
    simp only [rollbackUpdate]
    split
    · rfl
    · rfl
  | cancelled => rfl
  | cancelledSent => rfl

section Runs
variable {s0 s1 s2 : OrderStore} {id : Nat}

-- The two orders a partial sale leaves.
structure Splits (order : OrderRow) (dto : PartlySellDto) (parent child : OrderRow) : Prop where
  selects : Selects order.items dto.orderItemInfo
  sold : parent.items = soldItems order.items dto.orderItemInfo
  unsold : child.items = cancelledItems order.items dto.orderItemInfo
  soldPrice : parent.order.totalPrice = dto.totalPrice
  unsoldPrice : child.order.totalPrice = max (order.order.totalPrice - dto.totalPrice) 0

theorem partlySellOrder_splits (keyed : s0.table.Keyed) (below : ∀ key ∈ s0.table.map (·.1),key < s0.nextId)
    (here : s0.table.row id = some row) (performed : Performs (partlySellOrder lookups requester id dto requestId token) s0 s1) :
    ∃ parent child,s1.table.row id = some parent ∧ s1.table.row s0.nextId = some child ∧ Splits row dto parent child ∧
      partialChild id s0.nextId child = true := by
  obtain ⟨found,plan,updated,stored,planned,passed,table,-⟩ := partlySellOrder_performs keyed performed
  cases here.symm.trans stored
  obtain ⟨checked,-,sold,unsold,_,_,child⟩ := partlySellPlan_goods planned
  obtain ⟨-,_,_,_,_,_,_,-,-,plain⟩ := partlySellPlan_parts planned
  obtain ⟨rfl,-⟩ := updateOrder_parts passed
  have apart : s0.nextId ≠ id := by
    have low := below id (List.mem_map.mpr ⟨_,(row_exact keyed).mpr stored,rfl⟩)
    omega
  refine ⟨partlySoldRow lookups.now (updatedOrder lookups (some requester.id) plan.update row.order) plan row,
    ⟨plan.child,plan.childItems,none⟩,?_,?_,⟨checkPartlySellItems_selects checked,sold,unsold,?_,?_⟩,?_⟩
  · rw [table,applyWrites_row,written_update,if_pos rfl,stored,written_cons,Write.key,if_neg apart,written_nil]
    rfl
  · rw [table,applyWrites_row,written_update,if_neg (Ne.symm apart),written_cons,Write.key,if_pos rfl,written_nil]
    rfl
  · simp only [partlySoldRow,saveOrder_totalPrice,updatedOrder_totalPrice,plain]
    rfl
  · rw [child]
    rfl
  · simp [partialChild,child,unsoldOrder]

-- With a child to merge the rollback leaves goods and price as the sale left them.
theorem rollback_leaves (keyed : s1.table.Keyed) (here : s1.table.row id = some parent) (born : s1.table.row key = some child)
    (partly : partialChild id key child = true)
    (performed : Performs (rollbackOrderToWaiting lookups requester id targetStatus requestId) s1 s2) :
    ∃ after,s2.table.row id = some after ∧ after.items = parent.items ∧ after.order.totalPrice = parent.order.totalPrice ∧
      after.order.productQuantity = parent.order.productQuantity := by
  obtain ⟨found,target,plan,updated,items,stored,-,-,cascaded,planned,passed,table,-⟩ := rollback_performs keyed performed
  cases here.symm.trans stored
  have merged : (byCreation (s1.table.select (partialChild id))).isEmpty = false := by
    have member : (key,child) ∈ byCreation (s1.table.select (partialChild id)) :=
      List.mem_mergeSort.mpr (List.mem_filter.mpr ⟨(row_exact keyed).mpr born,partly⟩)
    exact List.isEmpty_eq_false_iff.mpr (List.ne_nil_of_mem member)
  have again : items = parent.items := by
    unfold cascadeItems at cascaded
    split at cascaded
    · exact (Except.ok.inj cascaded).symm
    · cases cascaded
  obtain ⟨rfl,-⟩ := updateOrder_parts passed
  obtain ⟨_,_,-,-,rfl⟩ := rollbackPlan_parts planned
  have final := congrArg (Table.row · id) table
  cases current : written ((byCreation (s1.table.select (partialChild id))).map (deleteChild lookups.now)) id (s1.table.row id) with
  | none => exact absurd current (written_present _ (by simp [here]))
  | some row =>
    rw [applyWrites_row,rollbackWrites,written_append,current,written_update,if_pos rfl,written_nil,Option.map_some] at final
    refine ⟨_,final,?_,?_,?_⟩
    · simp only [rollbackRow,merged,again]
      rfl
    · simp only [rollbackRow,saveOrder_totalPrice,updatedOrder_totalPrice,reversal,rollbackUpdate_totalPrice,Option.getD_none]
    · simp only [rollbackRow,saveOrder_productQuantity,updatedOrder_productQuantity]

-- The split adds up, its prices only when no more is asked than the order cost; the rollback
-- gives nothing back.
theorem partial_sale_never_restored (keyed : s0.table.Keyed) (below : ∀ key ∈ s0.table.map (·.1),key < s0.nextId)
    (here : s0.table.row id = some row) (sold : Performs (partlySellOrder lookups requester id dto requestId token) s0 s1)
    (back : Performs (rollbackOrderToWaiting later actor id targetStatus requestId') s1 s2) :
    ∃ parent child after,s1.table.row id = some parent ∧ s1.table.row s0.nextId = some child ∧ s2.table.row id = some after ∧
      (∀ productId,itemTotal parent.items productId + itemTotal child.items productId = itemTotal row.items productId) ∧
      (parent.order.totalPrice + child.order.totalPrice = row.order.totalPrice ↔ dto.totalPrice ≤ row.order.totalPrice) ∧
      after.items = parent.items ∧ after.order.totalPrice = parent.order.totalPrice ∧
      after.order.productQuantity = parent.order.productQuantity ∧ ¬RoundTrip id row parent child after s2.table := by
  obtain ⟨parent,child,standing,born,splits,partly⟩ := partlySellOrder_splits keyed below here sold
  have stillKeyed : s1.table.Keyed := by
    obtain ⟨answer,same⟩ := sold
    have kept := perform_keyed (partlySellOrder lookups requester id dto requestId token) keyed
    rwa [same] at kept
  obtain ⟨after,final,items,price,quantity⟩ := rollback_leaves stillKeyed standing born partly back
  refine ⟨parent,child,after,standing,born,final,?_,?_,items,price,quantity,?_⟩
  · intro productId
    rw [splits.sold,splits.unsold]
    exact split_goods splits.selects.lines productId
  · rw [splits.soldPrice,splits.unsoldPrice]
    omega
  · intro trip
    apply soldItems_differ splits.selects
    rw [←splits.sold,←items]
    exact trip.items

end Runs

-- Three pieces for 100 000 soum; the courier sells one of them for 40 000 and takes it back.
def threePieces : OrderRow := ⟨{sampleOrder with productQuantity:=3},[⟨21,3⟩],none⟩
def piecesStore : OrderStore := ⟨[(11,threePieces)],[],12⟩
def sellOne : Request :=
  partlySellOrder (sampleLookups 3000000 1000) sampleCourier 11 {orderItemInfo:=[⟨21,1⟩],totalPrice:=4000000} (some "a") "q"
def takeBack : Request := rollbackOrderToWaiting (sampleLookups 3000000 2000) sampleCourier 11 none (some "b")
def oneSold : OrderStore := (sellOne.perform piecesStore).2
def takenBack : OrderStore := (takeBack.perform oneSold).2

theorem pieces_keyed : piecesStore.table.Keyed := by decide
theorem pieces_below : ∀ key ∈ piecesStore.table.map (·.1),key < piecesStore.nextId := by decide
theorem oneSold_performs : Performs sellOne piecesStore oneSold := ⟨.success 200 "Order qisman sotildi",Prod.ext (by decide) rfl⟩
theorem takenBack_performs : Performs takeBack oneSold takenBack :=
  ⟨.success 200 "Order WAITING holatiga qaytarildi",Prod.ext (by decide +kernel) rfl⟩

theorem partial_sale_never_restored_pieces : ∃ parent child after,oneSold.table.row 11 = some parent ∧
    oneSold.table.row 12 = some child ∧ takenBack.table.row 11 = some after ∧ after.items = parent.items ∧
    ¬RoundTrip 11 threePieces parent child after takenBack.table := by
  obtain ⟨parent,child,after,standing,born,final,-,-,items,-,-,lost⟩ :=
    partial_sale_never_restored pieces_keyed pieces_below rfl oneSold_performs takenBack_performs
  exact ⟨parent,child,after,standing,born,final,items,lost⟩

-- Two pieces are gone: the order waits with one, for 40 000 soum, and the child is deleted.
theorem pieces_lost :
    (takenBack.table.row 11).map (fun row => (row.items,row.order.productQuantity,row.order.totalPrice)) = some ([⟨21,1⟩],1,4000000) ∧
    (takenBack.table.row 12).map (fun row => (row.items,row.order.isDeleted)) = some ([⟨21,2⟩],true) ∧
    ¬∀ (s0 s1 s2 : OrderStore) (row parent child after : OrderRow),s0.table.Keyed → s0.table.row 11 = some row →
      Performs sellOne s0 s1 → Performs takeBack s1 s2 → s1.table.row 11 = some parent → s1.table.row s0.nextId = some child →
      s2.table.row 11 = some after → RoundTrip 11 row parent child after s2.table := by
  refine ⟨by decide +kernel,by decide +kernel,?_⟩
  intro always
  have left : ((takenBack.table.row 11).map (·.order.totalPrice)) = some 4000000 := by decide +kernel
  obtain ⟨after,final,price⟩ := Option.map_eq_some_iff.mp left
  obtain ⟨parent,standing⟩ := Option.isSome_iff_exists.mp (show (oneSold.table.row 11).isSome = true by decide)
  obtain ⟨child,born⟩ := Option.isSome_iff_exists.mp (show (oneSold.table.row 12).isSome = true by decide)
  have trip := always piecesStore oneSold takenBack threePieces parent child after (by decide) rfl oneSold_performs
    takenBack_performs standing born final
  have restored := trip.totalPrice
  rw [price] at restored
  cases restored

end Elchi.Orders
