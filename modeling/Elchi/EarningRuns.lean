import Mathlib.Algebra.BigOperators.Fin
import Elchi.ExtraCosts
import Elchi.OperatorEarnings
namespace Elchi.RowLock

-- A sum over the rows of a table, taken key by key.
theorem keyed_sum {V : Type} {table : Table V} (keyed : table.Keyed) (value : Nat → V → Int) {keys : Finset Nat}
    (covers : ∀ key ∈ table.map (·.1),key ∈ keys) :
    (table.map fun entry => value entry.1 entry.2).sum = ∑ key ∈ keys,(table.row key).elim 0 (value key) := by
  have own : (table.map fun entry => value entry.1 entry.2) =
      (table.map (·.1)).map fun key => (table.row key).elim 0 (value key) := by
    rw [List.map_map]
    apply List.map_congr_left
    intro entry member
    rw [Function.comp_apply,(row_exact keyed).mp member]
    rfl
  rw [own,←List.sum_toFinset _ keyed]
  apply Finset.sum_subset
  · intro key member
    exact covers key (List.mem_toFinset.mp member)
  · intro key _ absent
    rw [List.mem_toFinset] at absent
    rw [row_none.mpr absent]
    rfl
theorem filtered_sum {α : Type} (chosen : α → Bool) (value : α → Int) (items : List α) :
    ((items.filter chosen).map value).sum = (items.map fun item => if chosen item then value item else 0).sum := by
  induction items with
  | nil => rfl
  | cons item rest ih =>
    rw [List.filter_cons,List.map_cons,List.sum_cons,←ih]
    cases chosen item with
    | true => simp
    | false => simp

end Elchi.RowLock

namespace Elchi.Orders
open RowLock
open Finance (OperatorPayment EarningDelivery Delivered Sales findOperatorBalance earningsAfter salesAfter credited due)

def OrderEvent.ofEarning : OrderEvent → Bool
  | .earningRecord _ _ _ _ => true
  | .earningRemove _ => true
  | _ => false
def earningEvents (log : List OrderCommit) : List OrderEvent :=
  log.flatMap fun commit => (commit.entries.map (·.2)).filter OrderEvent.ofEarning

-- The operator of an order that is in SOLD, PARTLY_PAID or PAID.
def salesman (table : Table OrderRow) (id : Nat) : Option Nat :=
  (table.row id).bind fun row => if isSold row.order.status then row.order.operatorId else none
-- The commissions of an operator's orders that are in a sold state now.
def owed (table : Table OrderRow) (sales : Sales) (operatorId : Nat) : Int :=
  ((table.filter fun entry => entry.2.order.operatorId == some operatorId && isSold entry.2.order.status).map fun entry =>
    ((sales entry.1).map (·.2)).getD 0).sum

-- A rollback saves the partial children as it read them.
def ReadsCurrent (commit : OrderCommit) : Prop := ∀ child ∈ commit.note.children,commit.before.row child.1 = some child.2

-- What a sale, a cancellation or a rollback does to the standing sales, with its event.
inductive TradeStep (commit : OrderCommit) : Prop where
  | quiet (events : earningEvents [commit] = []) (same : ∀ id,salesman commit.after id = salesman commit.before id)
  | sold (events : earningEvents [commit] = [.earningRecord orderId operatorId marketId totalPrice])
      (before : salesman commit.before orderId = none) (after : salesman commit.after orderId = some operatorId)
      (same : ∀ id,id ≠ orderId → salesman commit.after id = salesman commit.before id)
  | undone (events : earningEvents [commit] = [.earningRemove orderId]) (after : salesman commit.after orderId = none)
      (same : ∀ id,id ≠ orderId → salesman commit.after id = salesman commit.before id)

theorem salesman_applied (before : Table OrderRow) (writes : List (Write OrderRow)) (key : Nat) :
    salesman (applyWrites before writes) key =
      (written writes key (before.row key)).bind fun row => if isSold row.order.status then row.order.operatorId else none := by
  rw [salesman,applyWrites_row]

theorem updatedOrder_operatorId (lookups : Lookups) (requesterId : Option Nat) (dto : UpdateDto) (order : Order) :
    (updatedOrder lookups requesterId dto order).operatorId = order.operatorId := by
  obtain ⟨_,_,_,_,_,same⟩ := updatedOrder_parts lookups requesterId dto order
  rw [same]
  rfl
theorem saveOrder_operatorId (now : Nat) (entity stored : Order) : (saveOrder now entity stored).operatorId = entity.operatorId := by
  obtain ⟨_,same⟩ := saveOrder_parts now entity stored
  rw [same]

theorem legs_earn (legs : List BalanceLeg) : (legs.map OrderEvent.balance).filter OrderEvent.ofEarning = [] := by
  simp [List.filter_map,Function.comp_def,OrderEvent.ofEarning]
theorem record_earn (key marketId : Nat) (source : FinancialSource) (text : String) (extraCost : Int) :
    (extraCostRecord key marketId source text extraCost).filter OrderEvent.ofEarning = [] := by
  unfold extraCostRecord
  split
  · rfl
  · rfl
theorem keyed_earn (key : Nat) (events : List OrderEvent) : ((events.map (key,·)).map (·.2)).filter OrderEvent.ofEarning =
    events.filter OrderEvent.ofEarning := by
  simp [List.map_map,Function.comp_def]

-- The events of a status change: a sale records, a way back to WAITING removes.
theorem status_earn (id : Nat) (before after : Order) : (statusEvents id before after).filter OrderEvent.ofEarning =
    if isSold after.status = true ∧ isSold before.status = false then
      (after.operatorId.map fun operatorId => OrderEvent.earningRecord id operatorId after.marketId after.totalPrice).toList
    else if after.status = .waiting ∧ isSold before.status = true ∧ after.operatorId.isSome = true then [.earningRemove id] else [] := by
  unfold statusEvents financeEvents
  by_cases same : before.status = after.status
  · rw [if_pos same,same,if_neg (by simp)]
    rw [if_neg]
    · rfl
    · rintro ⟨waiting,sold,-⟩
      rw [waiting] at sold
      cases sold
  · rw [if_neg same]
    by_cases entered : isSold after.status = true ∧ isSold before.status = false
    · rw [if_pos entered,if_pos (by simp [entered]),List.filter_append]
      have profit : ∀ amount : Int,∀ text : String,(if amount ≠ 0 then [OrderEvent.financialBalance amount .sellProfit id after.marketId text]
          else []).filter OrderEvent.ofEarning = [] := by
        intro amount text
        split
        · rfl
        · rfl
      rw [profit,List.append_nil]
      cases after.operatorId with
      | none => rfl
      | some operatorId => rfl
    · rw [if_neg entered,if_neg (by simpa using entered)]
      split
      · rfl
      · rfl

section Trades
variable {id : Nat} {commit : OrderCommit}

theorem earningEvents_one (commit : OrderCommit) : earningEvents [commit] = (commit.entries.map (·.2)).filter OrderEvent.ofEarning := by
  simp [earningEvents]

-- One order is written, and its status events are all there is to its operator's earnings.
theorem own_step {stored : OrderRow} {updated : Order} (events : earningEvents [commit] = (statusEvents id stored.order updated).filter OrderEvent.ofEarning)
    (before : commit.before.row id = some stored)
    (after : salesman commit.after id = if isSold updated.status then updated.operatorId else none)
    (operator : updated.operatorId = stored.order.operatorId)
    (others : ∀ key,key ≠ id → salesman commit.after key = salesman commit.before key)
    (back : isSold stored.order.status = true → updated.status = .waiting) : TradeStep commit := by
  have old : salesman commit.before id = if isSold stored.order.status then stored.order.operatorId else none := by
    simp [salesman,before]
  rw [status_earn] at events
  cases sold : isSold stored.order.status with
  | true =>
    have waiting := back sold
    have unsold : isSold updated.status = false := by
      rw [waiting]
      rfl
    rw [if_neg (by simp [unsold])] at events
    rw [unsold,if_neg (by simp)] at after
    rw [sold,if_pos rfl] at old
    cases named : updated.operatorId with
    | none =>
      rw [named,if_neg (by simp)] at events
      refine .quiet events fun key => ?_
      by_cases same : key = id
      · rw [same,after,old,←operator,named]
      · exact others key same
    | some operatorId =>
      rw [named,if_pos ⟨waiting,sold,rfl⟩] at events
      exact .undone events after others
  | false =>
    rw [sold,if_neg (by simp)] at old
    cases now : isSold updated.status with
    | false =>
      rw [now,if_neg (by simp),if_neg (by simp [sold])] at events
      rw [now,if_neg (by simp)] at after
      refine .quiet events fun key => ?_
      by_cases same : key = id
      · rw [same,after,old]
      · exact others key same
    | true =>
      rw [if_pos ⟨now,sold⟩] at events
      rw [now,if_pos rfl] at after
      cases named : updated.operatorId with
      | none =>
        rw [named] at events after
        refine .quiet events fun key => ?_
        by_cases same : key = id
        · rw [same,after,old]
        · exact others key same
      | some operatorId =>
        rw [named] at events after
        exact .sold events old after others

theorem updated_operator (passed : updateOrder lookups requesterId dto order = .ok updated) : updated.operatorId = order.operatorId := by
  rw [(updateOrder_parts passed).1,updatedOrder_operatorId]

theorem sold_back {stored : OrderRow} (waiting : stored.order.status = .waiting) {P : Prop} : isSold stored.order.status = true → P := by
  rw [waiting]
  intro sold
  cases sold

theorem plan_earn (plan : SalePlan) (key : Nat) (events : List OrderEvent) (records : plan.record.filter OrderEvent.ofEarning = []) :
    (((plan.events ++ events).map (key,·)).map (·.2)).filter OrderEvent.ofEarning = events.filter OrderEvent.ofEarning := by
  rw [keyed_earn,SalePlan.events,List.filter_append,List.filter_append,legs_earn,records]
  rfl

-- A merged child is not in a sold state, before or after.
theorem merged_salesman {before : Table OrderRow} {children : Table OrderRow} (now : Nat) {key : Nat}
    (current : ∀ child ∈ children,before.row child.1 = some child.2)
    (unsold : ∀ child ∈ children,isSold child.2.order.status = false) :
    (written (children.map (deleteChild now)) key (before.row key)).bind
      (fun row => if isSold row.order.status then row.order.operatorId else none) = salesman before key := by
  by_cases touched : ∃ child ∈ children,child.1 = key
  · obtain ⟨child,member,rfl⟩ := touched
    have here := current child member
    have none : salesman before child.1 = none := by
      simp [salesman,here,unsold child member]
    rw [none]
    have stays : ∀ (list : Table OrderRow) (row : Option OrderRow),(∀ other ∈ list,isSold other.2.order.status = false) →
        (∀ found,row = some found → isSold found.order.status = false) →
        ∀ found,written (list.map (deleteChild now)) child.1 row = some found → isSold found.order.status = false := by
      intro list
      induction list with
      | nil => exact fun row _ clean => clean
      | cons head rest ih =>
        intro row others clean
        rw [List.map_cons,deleteChild,written_update]
        apply ih _ fun other inside => others other (.tail _ inside)
        intro found saved
        split at saved
        · obtain ⟨old,-,rfl⟩ := Option.map_eq_some_iff.mp saved
          simpa [saveRow] using others head List.mem_cons_self
        · exact clean found saved
    cases reached : written (children.map (deleteChild now)) child.1 (before.row child.1) with
    | none => rfl
    | some row =>
      have clean := stays children _ unsold (by rw [here]; rintro found ⟨⟩; exact unsold child member) row reached
      simp [clean]
  · push Not at touched
    rw [children_skip now touched]
    rfl

theorem trade_step (made : Transaction commit.held commit.note commit.writes commit.entries) (sees : Sees commit.held commit.before)
    (trades : commit.note.call.closesOrder = true ∨ commit.note.call.isRollback = true) (current : ReadsCurrent commit) :
    TradeStep commit := by
  obtain ⟨who,note,held,before,writes,entries⟩ := commit
  dsimp only at made sees trades
  cases made with
  | sell planned locked waiting passed =>
    rename_i lookups requester loaded dto requestId plan stored updated key
    have here := locks_row locked sees
    refine own_step ?_ here ?_ (updated_operator passed) ?_ (sold_back waiting)
    · obtain ⟨-,_,_,_,_,_,-,-,rfl⟩ := sellPlan_parts planned
      rw [earningEvents_one]
      exact plan_earn _ _ _ (record_earn _ _ _ _ _)
    · rw [Commit.after,salesman_applied]
      simp [written_update,here,soldRow,saveRow,saveOrder_operatorId]
    · intro other apart
      rw [Commit.after,salesman_applied,written_update,if_neg (Ne.symm apart),written_nil]
      rfl
  | partlySell planned locked waiting passed apart childNew =>
    rename_i lookups requester loaded items settlement dto requestId qrCodeToken plan stored updated childId key
    have here := locks_row locked sees
    obtain ⟨h,inHeld,rfl,missing⟩ := childNew
    have empty : before.row h.key = none := by rw [sees h inHeld,missing]
    refine own_step ?_ here ?_ (updated_operator passed) ?_ (sold_back waiting)
    · obtain ⟨-,_,_,_,_,_,_,-,-,same⟩ := partlySellPlan_parts planned
      rw [earningEvents_one]
      refine plan_earn _ _ _ ?_
      rw [same]
      exact record_earn _ _ _ _ _
    · rw [Commit.after,salesman_applied]
      simp [written_cons,Write.key,Write.result,here,apart,partlySoldRow,saveOrder_operatorId]
    · intro other different
      rw [Commit.after,salesman_applied,written_update,if_neg (Ne.symm different),written_cons,written_nil]
      by_cases same : h.key = other
      · subst same
        obtain ⟨-,-,-,-,branchId,courierId,child⟩ := partlySellPlan_goods planned
        simp [Write.key,Write.result,salesman,empty,child,unsoldOrder,isSold,soldStates]
      · simp [Write.key,same,salesman]
  | cancel planned locked waiting passed =>
    rename_i lookups requester loaded dto requestId plan stored updated key
    have here := locks_row locked sees
    refine own_step ?_ here ?_ (updated_operator passed) ?_ (sold_back waiting)
    · obtain ⟨-,_,_,_,-,-,record,-⟩ := cancelPlan_parts planned
      rw [earningEvents_one]
      simp only [keyed_earn,List.filter_append,legs_earn,record,record_earn,List.nil_append]
    · rw [Commit.after,salesman_applied]
      simp [written_update,here,saveRow,saveOrder_operatorId]
    · intro other apart
      rw [Commit.after,salesman_applied,written_update,if_neg (Ne.symm apart),written_nil]
      rfl
  | rollback target allowed planned locked unchanged passed merged =>
    rename_i targetStatus aim requester loaded lookups requestId plan stored updated children items key
    have here := locks_row locked sees
    have reached := rollback_status planned passed
    have unsold : ∀ child ∈ children,isSold child.2.order.status = false := by
      intro child member
      have partial' := merged child member
      simp only [partialChild,Bool.and_eq_true,List.contains_eq_mem,List.mem_cons,List.not_mem_nil,or_false,decide_eq_true_eq] at partial'
      rcases partial'.1.1.2 with cancelled | waiting
      · rw [cancelled]
        rfl
      · rw [waiting]
        rfl
    refine own_step ?_ here ?_ (updated_operator passed) ?_ ?_
    · obtain ⟨courierId,parties,-,-,rfl⟩ := rollbackPlan_parts planned
      rw [earningEvents_one]
      simp only [keyed_earn,RollbackPlan.events,List.filter_append,legs_earn,List.nil_append,List.append_nil]
      have none : (reversal lookups requester key loaded aim requestId courierId parties).record.filter OrderEvent.ofEarning = [] := by
        simp only [reversal]
        split
        · rfl
        · rfl
      rw [none,List.nil_append]
    · rw [Commit.after,salesman_applied,rollbackWrites,written_append,written_update,if_pos rfl,written_nil]
      cases row : written (children.map (deleteChild lookups.now)) key (before.row key) with
      | none => exact absurd row (written_present _ (by simp [here]))
      | some found => simp [rollbackRow,saveOrder_operatorId]
    · intro other apart
      rw [Commit.after,salesman_applied,rollbackWrites,written_append,written_update,if_neg (Ne.symm apart),written_nil]
      exact merged_salesman lookups.now current unsold
    · intro sold
      rcases reached with waiting | ⟨-,other⟩
      · exact waiting
      · rw [sold] at other
        cases other
  | _ => simp [Call.closesOrder,Call.isRollback] at trades

end Trades

-- The operator whose sale of an order the events leave standing.
def OrderEvent.sale (sales : Nat → Option Nat) : OrderEvent → Nat → Option Nat
  | .earningRecord orderId operatorId _ _,id => if id = orderId then some operatorId else sales id
  | .earningRemove orderId,id => if id = orderId then none else sales id
  | _,id => sales id
def saleOf (events : List OrderEvent) : Nat → Option Nat := events.foldl OrderEvent.sale fun _ => none
-- No sale of an order is enqueued while one stands.
def Alternating (events : List OrderEvent) : Prop :=
  ∀ before after orderId operatorId marketId totalPrice,
    events = before ++ .earningRecord orderId operatorId marketId totalPrice :: after → saleOf before orderId = none

theorem saleOf_snoc (events : List OrderEvent) (event : OrderEvent) : saleOf (events ++ [event]) = event.sale (saleOf events) := by
  simp [saleOf]
theorem earningEvents_snoc (log : List OrderCommit) (commit : OrderCommit) :
    earningEvents (log ++ [commit]) = earningEvents log ++ earningEvents [commit] := by
  simp [earningEvents]

theorem alternating_nil : Alternating [] := by
  intro before after orderId operatorId marketId totalPrice split
  cases before <;> cases split
theorem alternating_snoc (alternating : Alternating events) (free : ∀ orderId operatorId marketId totalPrice,
    event = .earningRecord orderId operatorId marketId totalPrice → saleOf events orderId = none) : Alternating (events ++ [event]) := by
  intro before after orderId operatorId marketId totalPrice split
  cases after using List.reverseRecOn with
  | nil =>
    obtain ⟨rfl,same⟩ := List.append_inj' split rfl
    exact free _ _ _ _ (List.cons.inj same).1
  | append_singleton after last =>
    rw [←List.cons_append,←List.append_assoc] at split
    exact alternating _ _ _ _ _ _ (List.append_inj' split rfl).1
theorem alternating_front (alternating : Alternating (first ++ second)) : Alternating first := by
  intro before after orderId operatorId marketId totalPrice split
  apply alternating before (after ++ second) orderId operatorId marketId totalPrice
  rw [split,List.append_assoc,List.cons_append]

-- The orders' statuses against the events enqueued.
theorem trades_alternate {first last : Table OrderRow} {log : List OrderCommit} (path : Replays first log last)
    (steps : ∀ commit ∈ log,TradeStep commit) (unsold : ∀ id,salesman first id = none) :
    Alternating (earningEvents log) ∧ ∀ id,saleOf (earningEvents log) id = salesman last id := by
  induction log using List.reverseRecOn generalizing last with
  | nil =>
    cases path
    exact ⟨alternating_nil,fun id => (unsold id).symm⟩
  | append_singleton log commit ih =>
    obtain ⟨middle,earlier,rfl,rfl⟩ := path.split
    obtain ⟨alternating,same⟩ := ih earlier fun other member => steps other (by simp [member])
    rw [earningEvents_snoc]
    cases steps commit (by simp) with
    | quiet events kept =>
      rw [events,List.append_nil]
      exact ⟨alternating,fun id => (same id).trans (kept id).symm⟩
    | sold events before after kept =>
      rename_i orderId operatorId marketId totalPrice
      rw [events]
      refine ⟨alternating_snoc alternating ?_,?_⟩
      · rintro _ _ _ _ ⟨⟩
        rw [same,before]
      · intro id
        rw [saleOf_snoc,OrderEvent.sale]
        by_cases mine : id = orderId
        · rw [if_pos mine,mine,after]
        · rw [if_neg mine,same,kept id mine]
    | undone events after kept =>
      rename_i orderId
      rw [events]
      refine ⟨alternating_snoc alternating nofun,?_⟩
      intro id
      rw [saleOf_snoc,OrderEvent.sale]
      by_cases mine : id = orderId
      · rw [if_pos mine,mine,after]
      · rw [if_neg mine,same,kept id mine]

section Deliveries
variable {events : List OrderEvent} {got rest : List EarningDelivery} {delivery : EarningDelivery}

theorem delivered_snoc (delivered : Delivered events (got ++ [delivery])) :
    ∃ earlier,events = earlier ++ [delivery.event] ∧ (Delivered earlier got ∨ Delivered events got) := by
  generalize whole : got ++ [delivery] = all at delivered
  cases delivered with
  | nothing => simp at whole
  | next prior last =>
    obtain ⟨rfl,same⟩ := List.append_inj' whole rfl
    cases same
    exact ⟨_,rfl,.inl prior⟩
  | again last prior =>
    obtain ⟨rfl,same⟩ := List.append_inj' whole rfl
    cases same
    exact ⟨_,rfl,.inr prior⟩

theorem delivered_front (delivered : Delivered events (got ++ rest)) :
    ∃ earlier later,events = earlier ++ later ∧ Delivered earlier got := by
  induction rest using List.reverseRecOn generalizing events with
  | nil => exact ⟨events,[],by simp,by simpa using delivered⟩
  | append_singleton rest last ih =>
    rw [←List.append_assoc] at delivered
    obtain ⟨earlier,rfl,before | same⟩ := delivered_snoc delivered
    · obtain ⟨first,second,rfl,prior⟩ := ih before
      exact ⟨first,second ++ [last.event],by simp,prior⟩
    · exact ih same

theorem sale_again {sales : Sales} (id : Nat) (known : delivery.event.sale (fun other => (sales other).map (·.1)) id = (sales id).map (·.1)) :
    (delivery.sale sales id).map (·.1) = (sales id).map (·.1) := by
  unfold EarningDelivery.sale
  cases event : delivery.event with
  | earningRecord orderId operatorId marketId totalPrice =>
    rw [event,OrderEvent.sale] at known
    dsimp only
    split
    · rename_i mine
      rw [if_pos mine] at known
      cases sale : sales id with
      | none => simp [sale] at known
      | some pair => rfl
    · rfl
  | earningRemove orderId =>
    rw [event,OrderEvent.sale] at known
    dsimp only
    split
    · rename_i mine
      rw [if_pos mine] at known
      rw [←known]
      rfl
    · rfl
  | _ => rfl
theorem sale_next {sales : Sales} (id : Nat) (free : ∀ orderId operatorId marketId totalPrice,
    delivery.event = .earningRecord orderId operatorId marketId totalPrice → sales orderId = none) :
    (delivery.sale sales id).map (·.1) = delivery.event.sale (fun other => (sales other).map (·.1)) id := by
  unfold EarningDelivery.sale
  cases event : delivery.event with
  | earningRecord orderId operatorId marketId totalPrice =>
    dsimp only [OrderEvent.sale]
    split
    · rename_i mine
      rw [mine,free _ _ _ _ event]
      rfl
    · rfl
  | earningRemove orderId =>
    dsimp only [OrderEvent.sale]
    split
    · rfl
    · rfl
  | _ => rfl

theorem sale_event (event : OrderEvent) (sales : Nat → Option Nat) : event.sale (event.sale sales) = event.sale sales := by
  funext id
  cases event with
  | earningRecord orderId operatorId marketId totalPrice =>
    simp only [OrderEvent.sale]
    split
    · rfl
    · rfl
  | earningRemove orderId =>
    simp only [OrderEvent.sale]
    split
    · rfl
    · rfl
  | _ => rfl

-- What has been heard of the sales is what was enqueued.
theorem delivered_sales (delivered : Delivered events got) (alternating : Alternating events) :
    (fun id => (salesAfter got id).map (·.1)) = saleOf events := by
  induction delivered with
  | nothing => rfl
  | next prior delivery ih =>
    rename_i earlier got
    have known := ih (alternating_front alternating)
    funext id
    rw [Finance.salesAfter_snoc,saleOf_snoc,←known]
    apply sale_next
    intro orderId operatorId marketId totalPrice event
    have free := alternating earlier [] orderId operatorId marketId totalPrice (by rw [event])
    rw [←known] at free
    simpa using free
  | again delivery prior ih =>
    rename_i earlier got
    have known := ih alternating
    rw [←known]
    funext id
    rw [Finance.salesAfter_snoc]
    apply sale_again
    rw [known,saleOf_snoc,sale_event,←saleOf_snoc,←known]

theorem delivered_fits (delivered : Delivered events (got ++ [delivery])) (alternating : Alternating events) : Finance.InTurn got delivery := by
  intro orderId operatorId marketId totalPrice event sale standing
  obtain ⟨earlier,rfl,before | same⟩ := delivered_snoc delivered
  · have known := congrFun (delivered_sales before (alternating_front alternating)) orderId
    have free := alternating earlier [] orderId operatorId marketId totalPrice (by rw [event])
    rw [standing,free] at known
    cases known
  · have known := congrFun (delivered_sales same alternating) orderId
    rw [standing,saleOf_snoc,event,OrderEvent.sale,if_pos rfl] at known
    exact Option.some.inj known

end Deliveries

section Sums
variable {operatorId : Nat} {keys : Finset Nat}

theorem earned_keys (got : List EarningDelivery) (payments : List OperatorPayment) (operatorId : Nat) {keys : Finset Nat}
    (covers : ∀ key ∈ (earningsAfter got).map (·.1),key ∈ keys) :
    (findOperatorBalance (earningsAfter got) payments operatorId).earned = ∑ key ∈ keys,credited (earningsAfter got) operatorId key := by
  have sum := keyed_sum (Finance.earningsAfter_keyed got)
    (fun _ row => if row.operatorId = operatorId ∧ row.isDeleted = false then row.amount else 0) covers
  simp only [findOperatorBalance]
  rw [filtered_sum]
  simp only [Bool.and_eq_true,beq_iff_eq,Bool.not_eq_true']
  rw [sum]
  apply Finset.sum_congr rfl
  intro key _
  unfold credited
  cases (earningsAfter got).row key with
  | none => rfl
  | some row => rfl

theorem owed_keys {table : Table OrderRow} (keyed : table.Keyed) {sales : Sales} (same : ∀ id,(sales id).map (·.1) = salesman table id)
    (operatorId : Nat) (covers : ∀ key ∈ table.map (·.1),key ∈ keys) : owed table sales operatorId = ∑ key ∈ keys,due sales operatorId key := by
  unfold owed
  rw [filtered_sum]
  have sum := keyed_sum keyed (fun key row => if row.order.operatorId == some operatorId && isSold row.order.status then
    ((sales key).map (·.2)).getD 0 else 0) covers
  rw [sum]
  apply Finset.sum_congr rfl
  intro key _
  have known := same key
  unfold salesman at known
  unfold due
  cases here : table.row key with
  | none =>
    rw [here,Option.bind_none,Option.map_eq_none_iff] at known
    rw [known]
    rfl
  | some row =>
    rw [here,Option.bind_some] at known
    cases sale : sales key with
    | none => simp
    | some pair =>
      obtain ⟨other,commission⟩ := pair
      rw [sale,Option.map_some] at known
      cases sold : isSold row.order.status with
      | false => simp [sold] at known
      | true =>
        rw [sold,if_pos rfl] at known
        simp [sold,←known]

end Sums

theorem replays_keyed {first last : Table OrderRow} {log : List OrderCommit} (path : Replays first log last) (keyed : first.Keyed) :
    last.Keyed :=
  (path.holds keyed fun _ _ before => applyWrites_keyed _ before).1

-- Every commit enqueues one earning event at most, so the events so far are those of a
-- beginning of the log.
theorem events_front {log : List OrderCommit} {first last : Table OrderRow} (path : Replays first log last)
    (steps : ∀ commit ∈ log,TradeStep commit) (split : earningEvents log = earlier ++ later) :
    ∃ before after middle,log = before ++ after ∧ earningEvents before = earlier ∧ Replays first before middle := by
  induction log using List.reverseRecOn generalizing last later with
  | nil =>
    have none : earlier = [] := (List.append_eq_nil_iff.mp split.symm).1
    exact ⟨[],[],first,rfl,none.symm,rfl⟩
  | append_singleton log commit ih =>
    obtain ⟨middle,prior,-,-⟩ := path.split
    rw [earningEvents_snoc] at split
    have shorter : ∀ later,earningEvents log = earlier ++ later →
        ∃ before after middle,log ++ [commit] = before ++ after ∧ earningEvents before = earlier ∧ Replays first before middle := by
      intro later split
      obtain ⟨before,after,middle,rfl,same,reached⟩ := ih prior (fun other member => steps other (by simp [member])) split
      exact ⟨before,after ++ [commit],middle,by simp,same,reached⟩
    have single : ∀ event,earningEvents [commit] = [event] →
        ∃ before after middle,log ++ [commit] = before ++ after ∧ earningEvents before = earlier ∧ Replays first before middle := by
      intro event one
      rw [one] at split
      cases later using List.reverseRecOn with
      | nil =>
        rw [List.append_nil] at split
        exact ⟨log ++ [commit],[],last,by simp,by rw [earningEvents_snoc,one,split],path⟩
      | append_singleton later other =>
        rw [←List.append_assoc] at split
        exact shorter later (List.append_inj' split rfl).1
    cases steps commit (by simp) with
    | quiet events kept =>
      rw [events,List.append_nil] at split
      exact shorter later split
    | sold events before after kept => exact single _ events
    | undone events after kept => exact single _ events

-- Over all runs of sales, cancellations and rollbacks, from orders of which none is sold: an
-- operator has earned the commissions of the orders sold now, at every point where all events
-- so far have been applied, if and only if every delivery is honoured.
theorem operator_earnings_exact {table : Table OrderRow} (keyed : table.Keyed) (below : ∀ key ∈ table.map (·.1),key < nextId)
    (calls : List Call) (turns : List Turn) (trades : ∀ call ∈ calls,call.closesOrder = true ∨ call.isRollback = true)
    (unsold : ∀ id,salesman table id = none)
    (current : ∀ commit ∈ (serve table nextId calls turns).log,ReadsCurrent commit)
    (operatorId : Nat) (payments : List OperatorPayment) (deliveries : List EarningDelivery)
    (delivered : Delivered (earningEvents (serve table nextId calls turns).log) deliveries) :
    (∀ before after middle got rest,(serve table nextId calls turns).log = before ++ after → Replays table before middle →
      deliveries = got ++ rest → Delivered (earningEvents before) got →
      (findOperatorBalance (earningsAfter got) payments operatorId).earned = owed middle (salesAfter got) operatorId) ↔
    ∀ got delivery rest,deliveries = got ++ delivery :: rest → Finance.Honoured operatorId got delivery := by
  have history := serve_replays table nextId calls turns
  have steps : ∀ commit ∈ (serve table nextId calls turns).log,TradeStep commit := by
    intro commit member
    obtain ⟨listed,made,sees⟩ := serve_logged keyed below member
    exact trade_step made sees (trades _ listed) (current commit member)
  obtain ⟨alternating,-⟩ := trades_alternate history steps unsold
  -- every delivery finds its order's sale as its event needs it
  have fits : ∀ got delivery rest,deliveries = got ++ delivery :: rest → Finance.InTurn got delivery := by
    intro got delivery rest split
    rw [split,List.append_cons] at delivered
    obtain ⟨earlier,later,same,prior⟩ := delivered_front delivered
    rw [same] at alternating
    exact delivered_fits prior (alternating_front alternating)
  have attributed : ∀ got rest,deliveries = got ++ rest → Finance.Attributed got := by
    intro got
    induction got using List.reverseRecOn with
    | nil => exact fun _ _ => nofun
    | append_singleton got delivery ih =>
      intro rest split
      rw [List.append_assoc,List.singleton_append] at split
      exact Finance.attributed_snoc (ih _ split) (fits got delivery rest split)
  have sums : ∀ before after middle got,(serve table nextId calls turns).log = before ++ after → Replays table before middle →
      Delivered (earningEvents before) got → ∃ keys : Finset Nat,(∀ delivery ∈ got,∀ id,delivery.orderId = some id → id ∈ keys) ∧
      (findOperatorBalance (earningsAfter got) payments operatorId).earned = ∑ key ∈ keys,credited (earningsAfter got) operatorId key ∧
      owed middle (salesAfter got) operatorId = ∑ key ∈ keys,due (salesAfter got) operatorId key := by
    intro before after middle got split reached here
    obtain ⟨apart,known⟩ := trades_alternate reached (fun commit member => steps commit (by simp [split,member])) unsold
    have same := congrFun (delivered_sales here apart)
    refine ⟨(((earningsAfter got).map (·.1)) ++ middle.map (·.1) ++ got.filterMap EarningDelivery.orderId).toFinset,?_,?_,?_⟩
    · intro delivery member id mine
      simp only [List.mem_toFinset,List.mem_append]
      exact .inr (List.mem_filterMap.mpr ⟨delivery,member,mine⟩)
    · apply earned_keys
      intro key member
      simp only [List.mem_toFinset,List.mem_append]
      exact .inl (.inl member)
    · apply owed_keys (replays_keyed reached keyed) fun id => (same id).trans (known id)
      intro key member
      simp only [List.mem_toFinset,List.mem_append]
      exact .inl (.inr member)
  constructor
  · intro right
    have orders : ∀ got rest,deliveries = got ++ rest → ∀ id,credited (earningsAfter got) operatorId id = due (salesAfter got) operatorId id := by
      intro got
      induction got using List.reverseRecOn with
      | nil => exact fun _ _ _ => rfl
      | append_singleton got delivery ih =>
        intro rest split id
        have prior : deliveries = got ++ delivery :: rest := by simp [split]
        have earlier := ih _ prior
        by_cases mine : delivery.orderId = some id
        · have whole := delivered
          rw [split] at whole
          obtain ⟨first,second,cut,here⟩ := delivered_front whole
          obtain ⟨before,after,middle,parts,rfl,reached⟩ := events_front history steps cut
          obtain ⟨keys,inside,earned,owes⟩ := sums before after middle _ parts reached here
          have total := right before after middle _ rest parts reached split here
          rw [earned,owes,←sub_eq_zero,←Finset.sum_sub_distrib] at total
          rw [Finset.sum_eq_single id] at total
          · exact sub_eq_zero.mp total
          · intro other _ apart
            obtain ⟨kept,same⟩ := Finance.apply_elsewhere got (fun own => apart (Option.some.inj (mine.symm.trans own)).symm) operatorId
            rw [kept,same,earlier other,sub_self]
          · exact fun absent => absurd (inside delivery (by simp) id mine) absent
        · obtain ⟨kept,same⟩ := Finance.apply_elsewhere got mine operatorId
          rw [kept,same,earlier id]
    intro got delivery rest split
    have next : deliveries = (got ++ [delivery]) ++ rest := by simp [split]
    cases mine : delivery.orderId with
    | none => exact Finance.honoured_other mine
    | some id =>
      exact (Finance.honoured_exact (attributed got _ split) (fits got delivery rest split) mine (orders got _ split id)).mp
        (orders _ rest next id)
  · intro honoured
    have orders : ∀ got rest,deliveries = got ++ rest → ∀ id,credited (earningsAfter got) operatorId id = due (salesAfter got) operatorId id := by
      intro got
      induction got using List.reverseRecOn with
      | nil => exact fun _ _ _ => rfl
      | append_singleton got delivery ih =>
        intro rest split id
        have prior : deliveries = got ++ delivery :: rest := by simp [split]
        by_cases mine : delivery.orderId = some id
        · exact (Finance.honoured_exact (attributed got _ prior) (fits got delivery rest prior) mine (ih _ prior id)).mpr
            (honoured got delivery rest prior)
        · obtain ⟨kept,same⟩ := Finance.apply_elsewhere got mine operatorId
          rw [kept,same,ih _ prior id]
    intro before after middle got rest split reached cut here
    obtain ⟨keys,-,earned,owes⟩ := sums before after middle got split reached here
    rw [earned,owes]
    exact Finset.sum_congr rfl fun key _ => orders got rest cut key

-- Operator 4 has five percent of the 100 000 so'm; the order is sold, rolled back and sold again.
def operatorTable : Table OrderRow := [(11,⟨{sampleOrder with operatorId:=some 4},[],none⟩)]
def soldBackAndAgain : List Call :=
  [.sell (sampleLookups 3000000 1000) sampleCourier 11 {} (some "a"),
   .rollback (sampleLookups 3000000 2000) sampleCourier 11 none (some "b"),
   .sell (sampleLookups 3000000 3000) sampleCourier 11 {} (some "c")]
def fivePercent : Finance.OperatorCommission := ⟨some "percent",some 5⟩
def saleHeard (operator : Option Finance.OperatorCommission) : EarningDelivery := ⟨.earningRecord 11 4 1 10000000,operator⟩
def rollbackHeard : EarningDelivery := ⟨.earningRemove 11,none⟩

-- The sale is redelivered when identity no longer knows the operator, and so is the rollback.
theorem operator_earnings_exact_sold_and_back :
    (findOperatorBalance (earningsAfter [saleHeard (some fivePercent),saleHeard none]) [] 4).earned = 500000 ∧
    ∀ before after middle got rest,(serve operatorTable 12 (soldBackAndAgain.take 2) inTurn).log = before ++ after →
      Replays operatorTable before middle →
      [saleHeard (some fivePercent),saleHeard none,rollbackHeard,rollbackHeard] = got ++ rest → Delivered (earningEvents before) got →
      (findOperatorBalance (earningsAfter got) [] 4).earned = owed middle (salesAfter got) 4 := by
  refine ⟨by decide +kernel,?_⟩
  refine (operator_earnings_exact (by decide) (by decide) (soldBackAndAgain.take 2) inTurn ?_ ?_ ?_ 4 []
    [saleHeard (some fivePercent),saleHeard none,rollbackHeard,rollbackHeard] ?_).mpr ?_
  · simp [soldBackAndAgain,Call.closesOrder,Call.isRollback]
  · intro id
    have waiting : ∀ row,Table.row operatorTable id = some row → row.order.status = .waiting := by
      intro row here
      rw [operatorTable,row_cons] at here
      split at here
      · cases here
        rfl
      · cases here
    rw [salesman]
    cases here : Table.row operatorTable id with
    | none => rfl
    | some row => simp [waiting row here,isSold,soldStates]
  · intro commit member child inside
    have childless : ∀ commit ∈ (serve operatorTable 12 (soldBackAndAgain.take 2) inTurn).log,commit.note.children.length = 0 := by decide +kernel
    rw [List.eq_nil_of_length_eq_zero (childless commit member)] at inside
    cases inside
  · have events : earningEvents (serve operatorTable 12 (soldBackAndAgain.take 2) inTurn).log =
        [(saleHeard none).event,rollbackHeard.event] := by decide +kernel
    rw [events]
    have heard : Delivered [(saleHeard none).event] [saleHeard (some fivePercent),saleHeard none] :=
      @Delivered.again [] _ (saleHeard none) (.next .nothing (saleHeard (some fivePercent)))
    exact @Delivered.again [(saleHeard none).event] _ rollbackHeard (.next heard rollbackHeard)
  · have checked : ∀ n ∈ List.range 4,
        ∀ delivery ∈ ([saleHeard (some fivePercent),saleHeard none,rollbackHeard,rollbackHeard].drop n).head?,
        Finance.Honoured 4 ([saleHeard (some fivePercent),saleHeard none,rollbackHeard,rollbackHeard].take n) delivery := by decide
    intro got delivery rest split
    have length := congrArg List.length split
    simp only [List.length_cons,List.length_nil,List.length_append] at length
    have here := checked got.length (List.mem_range.mpr (by omega)) delivery
    rw [split,List.drop_left,List.take_left] at here
    exact here rfl

-- The second sale finds the removed row and leaves it removed; and a redelivered sale is paid by
-- the commission of the day it is redelivered.
theorem resale_earns_nothing :
    (Delivered (earningEvents (serve operatorTable 12 soldBackAndAgain inTurn).log)
        [saleHeard (some fivePercent),rollbackHeard,saleHeard (some fivePercent)] ∧
      statusAt (serve operatorTable 12 soldBackAndAgain inTurn).table 11 = some .sold ∧
      (findOperatorBalance (earningsAfter [saleHeard (some fivePercent),rollbackHeard,saleHeard (some fivePercent)]) [] 4).earned = 0 ∧
      owed (serve operatorTable 12 soldBackAndAgain inTurn).table
        (salesAfter [saleHeard (some fivePercent),rollbackHeard,saleHeard (some fivePercent)]) 4 = 500000) ∧
    (findOperatorBalance (earningsAfter [saleHeard (some fivePercent),saleHeard (some ⟨some "percent",some 10⟩)]) [] 4).earned = 1000000 ∧
      owed (serve operatorTable 12 (soldBackAndAgain.take 1) inTurn).table
        (salesAfter [saleHeard (some fivePercent),saleHeard (some ⟨some "percent",some 10⟩)]) 4 = 500000 := by
  refine ⟨⟨?_,by decide +kernel,by decide +kernel,by decide +kernel⟩,by decide +kernel,by decide +kernel⟩
  have events : earningEvents (serve operatorTable 12 soldBackAndAgain inTurn).log =
      [(saleHeard none).event,rollbackHeard.event,(saleHeard none).event] := by decide +kernel
  rw [events]
  exact .next (.next (.next .nothing (saleHeard (some fivePercent))) rollbackHeard) (saleHeard (some fivePercent))

end Elchi.Orders
