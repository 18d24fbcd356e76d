import Elchi.FinancialTransfers
namespace Elchi
open RowLock Finance Orders

-- The order service's rows as a sale finds them: an order and its settlement row are one row here.
def soldSettlements (store : OrderStore) : List OrderSettlement := settlementRows OrderRow.settlement store.table
structure Sales where
  store : OrderStore
  keyed : store.table.Keyed
  below : ∀ key ∈ store.table.map (·.1),key < store.nextId
  owed : Owed (soldSettlements store)

def saleOf (table : Table OrderRow) (lookups : Lookups) (requester : Requester) (id : Nat) : Option (OrderRow × SaleParties) := do
  let row ← table.row id
  let courierId ← (resolveActorCourierId requester row.order (row.order.postId.bind lookups.posts)).toOption
  let parties ← (saleParties lookups requester row.order courierId).toOption
  return (row,parties)
-- The terms of the sale a request makes, and what the order's settlement row still counts for before it.
def soldOn (table : Table OrderRow) : Orders.Call → Option (SaleTerms × Int)
  | .sell lookups requester id dto _ => (saleOf table lookups requester id).map fun sale =>
    (sellTerms lookups requester sale.1.order sale.2 dto,sale.1.settlement.elim 0 dueOf)
  | .partlySell lookups requester id dto _ _ => (saleOf table lookups requester id).map fun sale =>
    (partlySellTerms lookups requester sale.1.order sale.2 dto,sale.1.settlement.elim 0 dueOf)
  | _ => none

-- The cashbox events a request has enqueued, each to be consumed at a time of its own.
def enqueued (store final : OrderStore) : List BalanceLeg := legsOf ((final.journal.drop store.journal.length).map (·.2))
def eventJobs (store final : OrderStore) (now : Nat → Nat) : List Job :=
  (enqueued store final).zipIdx.map fun entry => legJob (now entry.2) entry.1

-- What a sale adds to the receivable, and how much of a total the clamp at zero hides.
def SaleTerms.receivable (terms : SaleTerms) : Int := if terms.settlementBranchId.isSome then max terms.branchNet 0 else 0
def hidden (total : Int) : Int := max (-total) 0
def SaleNeutral (cashboxes : Table Row) (terms : SaleTerms) (due : Int) : Prop :=
  let total := sumCashboxBalanceByType cashboxes .forMarket
  SaleTerms.receivable terms - due - terms.branchNet + terms.extraCost =
    hidden (total + (terms.price - terms.marketTariff) - terms.extraCost) - hidden total

theorem saleSettlement_due (now : Nat) (courier branch : Option Nat) (marketId : Nat) (courierAmount branchAmount marketAmount : Int) :
    dueOf (saleSettlement now courier branch marketId courierAmount branchAmount marketAmount) =
      if branch.isSome then max branchAmount 0 else 0 := by
  unfold dueOf receivable saleSettlement
  cases courier with
  | none => cases branch with
    | none => rfl
    | some branchId => rfl
  | some courierId => cases branch with
    | none => rfl
    | some branchId => rfl

section Legs

def legMove (leg : BalanceLeg) : Move := ⟨leg.userId,leg.cashboxType,leg.signed⟩

theorem legJobs_flat (legs : List BalanceLeg) (now : Nat → Nat) (start : Nat) :
    ((legs.zipIdx start).map fun entry => legJob (now entry.2) entry.1).flatMap (·.moves) = legs.map legMove := by
  induction legs generalizing start with
  | nil => rfl
  | cons leg rest ih =>
    rw [List.zipIdx_cons,List.map_cons,List.flatMap_cons,ih]
    rfl

theorem movedOf_append (left right : List Move) (type : CashboxType) :
    movedOf (left ++ right) type = movedOf left type + movedOf right type := by
  simp [movedOf]

-- Legs of other types of cashbox move nothing on this one.
theorem moved_elsewhere {moves : List Move} {type : CashboxType} (elsewhere : ∀ move ∈ moves,move.cashboxType ≠ type) (user : Nat) :
    moved moves user type = 0 ∧ movedOf moves type = 0 := by
  induction moves with
  | nil => exact ⟨rfl,rfl⟩
  | cons move rest ih =>
    obtain ⟨one,all⟩ := ih fun other member => elsewhere other (.tail _ member)
    have here := elsewhere move List.mem_cons_self
    simp only [moved,movedOf,List.map_cons,List.sum_cons,Move.on,here,and_false,if_false] at one all ⊢
    omega

theorem movement_moves (leg : BalanceLeg) (signed : Int) : movedOf ((movement leg signed).map legMove) leg.cashboxType = signed := by
  unfold movement
  split
  · simp [movedOf,legMove,BalanceLeg.signed]
  · split
    · simp [movedOf,legMove,BalanceLeg.signed]
    · simp [movedOf]
      omega

theorem movement_type {leg made : BalanceLeg} (member : made ∈ movement leg signed) : made.cashboxType = leg.cashboxType :=
  List.mem_singleton.mp ((movement_types leg signed).subset (List.mem_map_of_mem member))

theorem saleExpense_type {expense : Nat × CashboxType} (named : saleExpense requester courierId parties terms = some expense) :
    expense.2 ≠ .forMarket ∧ expense.2 ≠ .main := by
  have actor : expense = actorExpense requester courierId := by
    unfold saleExpense at named
    split at named
    · obtain ⟨_,-,same⟩ := Option.map_eq_some_iff.mp named
      exact same.symm
    · obtain ⟨_,-,same⟩ := Option.map_eq_some_iff.mp named
      exact same.symm
  rw [actor]
  unfold actorExpense
  split
  · simp
  · simp

theorem codLegs_moved (leg : BalanceLeg) (marketId : Nat) (courier branch : Option Nat) (marketAmount courierAmount branchAmount : Int) :
    movedOf ((codLegs leg marketId courier branch marketAmount courierAmount branchAmount).map legMove) .forMarket = marketAmount := by
  have elsewhere : ∀ (leg : BalanceLeg) signed,leg.cashboxType ≠ .forMarket → movedOf ((movement leg signed).map legMove) .forMarket = 0 := by
    intro leg signed other
    refine (moved_elsewhere ?_ 0).2
    intro move member
    obtain ⟨made,listed,rfl⟩ := List.mem_map.mp member
    rw [legMove,movement_type listed]
    exact other
  have market := movement_moves {leg with userId:=marketId,cashboxType:=.forMarket} marketAmount
  unfold codLegs
  rw [List.map_append,List.map_append,movedOf_append,movedOf_append,market]
  have none : movedOf [] .forMarket = 0 := rfl
  cases courier with
  | none => cases branch with
    | none => simp [none]
    | some branchId => simp [none,elsewhere]
  | some courierId => cases branch with
    | none => simp [none,elsewhere]
    | some branchId => simp [elsewhere]

theorem extraCostLegs_moved (leg : BalanceLeg) (marketId : Nat) {actor : Option (Nat × CashboxType)} {extraCost : Int} (charged : 0 ≤ extraCost)
    (apart : ∀ expense,actor = some expense → expense.2 ≠ .forMarket) :
    movedOf ((extraCostLegs leg marketId actor extraCost).map legMove) .forMarket = -extraCost := by
  unfold extraCostLegs
  split
  · cases actor with
    | none => simp [movedOf,legMove,BalanceLeg.signed]
    | some expense => simp [movedOf,legMove,BalanceLeg.signed,apart expense rfl]
  · simp [movedOf]
    omega

theorem sale_moved {id : Nat} (charged : 0 ≤ terms.extraCost) (user : Nat) :
    moved ((salePlan lookups requester id order requestId courierId parties terms kind comment files paid time).legs.map legMove) user .main = 0 ∧
    movedOf ((salePlan lookups requester id order requestId courierId parties terms kind comment files paid time).legs.map legMove) .forMarket =
      terms.price - terms.marketTariff - terms.extraCost := by
  rw [SalePlan.legs]
  constructor
  · refine (moved_elsewhere ?_ user).1
    intro move member
    obtain ⟨leg,listed,rfl⟩ := List.mem_map.mp member
    rcases List.mem_append.mp listed with cod | extra
    · have type := (codLegs_types _ _ _ _ _ _ _).subset (List.mem_map_of_mem cod)
      intro main
      rw [show leg.cashboxType = .main from main] at type
      simp at type
    · simp only [salePlan,extraCostLegs] at extra
      split at extra
      · cases named : saleExpense requester courierId parties terms with
        | none =>
          simp only [named,List.mem_cons,List.not_mem_nil,or_false] at extra
          subst extra
          simp [legMove]
        | some expense =>
          simp only [named,List.mem_cons,List.not_mem_nil,or_false] at extra
          rcases extra with rfl | rfl
          · simp [legMove]
          · exact (saleExpense_type named).2
      · cases extra
  · rw [List.map_append,movedOf_append]
    simp only [salePlan]
    rw [codLegs_moved,extraCostLegs_moved _ _ charged fun expense named => (saleExpense_type named).1]
    omega

end Legs

section Sale
variable {call : Orders.Call} {final : OrderStore} {terms : SaleTerms} {due : Int}

-- What a sale of either kind has done: its events and the settlement row it leaves.
structure SoldOn (sales : Sales) (final : OrderStore) (terms : SaleTerms) (due : Int) : Prop where
  main : ∀ user,moved ((enqueued sales.store final).map legMove) user .main = 0
  markets : movedOf ((enqueued sales.store final).map legMove) .forMarket = terms.price - terms.marketTariff - terms.extraCost
  receivable : ((soldSettlements final).map dueOf).sum = ((soldSettlements sales.store).map dueOf).sum + (SaleTerms.receivable terms - due)
  owed : Owed (soldSettlements final)

theorem enqueued_sale {store : OrderStore} {events : List OrderEvent} {id : Nat} (journal : final.journal = store.journal ++ events.map (id,·)) :
    enqueued store final = legsOf events := by
  unfold enqueued
  rw [journal,List.drop_left]
  simp [Function.comp_def]

theorem saleOf_parts {table : Table OrderRow} {id : Nat} (found : saleOf table lookups requester id = some (row,parties)) :
    table.row id = some row ∧ ∃ courierId,resolveActorCourierId requester row.order (row.order.postId.bind lookups.posts) = .ok courierId ∧
      saleParties lookups requester row.order courierId = .ok parties := by
  unfold saleOf at found
  obtain ⟨stored,here,rest⟩ := Option.bind_eq_some_iff.mp found
  obtain ⟨courierId,acting,rest⟩ := Option.bind_eq_some_iff.mp rest
  obtain ⟨dealing,known,rest⟩ := Option.bind_eq_some_iff.mp rest
  cases rest
  refine ⟨here,courierId,?_,?_⟩
  · cases actor : resolveActorCourierId requester row.order (row.order.postId.bind lookups.posts) with
    | error error => rw [actor] at acting; cases acting
    | ok chosen => rw [actor] at acting; cases acting; rfl
  · cases sale : saleParties lookups requester row.order courierId with
    | error error => rw [sale] at known; cases known
    | ok chosen => rw [sale] at known; cases known; rfl

-- A sale saves its order with a new settlement row; a partial one also adds a child without any.
theorem settled_rows {sales : Sales} {id : Nat} {row : OrderRow} {settlement : OrderSettlement} {save : OrderRow → OrderRow}
    {more : List (Write OrderRow)} (stored : sales.store.table.row id = some row)
    (saved : ∀ old,(save old).settlement = some settlement) (nonneg : 0 ≤ settlement.branchAmount)
    (adds : more = [] ∨ ∃ child,more = [.insert sales.store.nextId child] ∧ child.settlement = none)
    (written : final.table = applyWrites sales.store.table (.update id save :: more)) :
    ((soldSettlements final).map dueOf).sum = ((soldSettlements sales.store).map dueOf).sum + (dueOf settlement - rowDue OrderRow.settlement row) ∧
      Owed (soldSettlements final) := by
  constructor
  · have first := weigh_update sales.keyed (rowDue OrderRow.settlement) id save
    have new : rowDue OrderRow.settlement (save row) = dueOf settlement := by rw [rowDue,saved,Option.elim_some]
    rw [stored,Option.elim_some,new] at first
    rw [soldSettlements,soldSettlements,settlementRows_due,settlementRows_due,written]
    rcases adds with rfl | ⟨child,rfl,none⟩
    · exact first
    · have unused : ((Write.update id save).apply sales.store.table).row sales.store.nextId = Option.none := by
        have before : sales.store.table.row sales.store.nextId = Option.none := by
          apply row_none.mpr
          intro member
          exact absurd (sales.below _ member) (Nat.lt_irrefl _)
        rw [apply_row,before]
        split
        · rfl
        · rfl
      have second := weigh_put (apply_keyed (.update id save) sales.keyed) (rowDue OrderRow.settlement) sales.store.nextId child
      have nothing : rowDue OrderRow.settlement child = 0 := by rw [rowDue,none,Option.elim_none]
      rw [unused,Option.elim_none,nothing,first] at second
      exact (Int.add_zero _).symm.trans (second.trans (Int.add_zero _))
  · have keyed : final.table.Keyed := by
      rw [written]
      exact applyWrites_keyed _ sales.keyed
    apply (settlementRows_owed _ keyed).mpr
    rw [written]
    apply applyWrites_keeps
    · intro key value member found has
      rcases List.mem_cons.mp member with impossible | member
      · cases impossible
      rcases adds with rfl | ⟨child,rfl,none⟩
      · cases member
      · cases List.mem_singleton.mp member
        rw [none] at has
        cases has
    · intro key change member value _ found has
      rcases List.mem_cons.mp member with same | member
      · cases same
        rw [saved] at has
        cases has
        exact nonneg
      rcases adds with rfl | ⟨child,rfl,-⟩
      · cases member
      · cases List.mem_singleton.mp member
    · exact (settlementRows_owed _ sales.keyed).mp sales.owed

theorem plan_sold {sales : Sales} {id : Nat} {row : OrderRow} {events rest : List OrderEvent} {save : OrderRow → OrderRow} {more : List (Write OrderRow)}
    (stored : sales.store.table.row id = some row) (charged : 0 ≤ terms.extraCost)
    (legs : legsOf events = (salePlan lookups requester id order requestId courierId parties terms kind comment files paid time).legs)
    (saved : ∀ old,(save old).settlement = some
      (salePlan lookups requester id order requestId courierId parties terms kind comment files paid time).settlement)
    (adds : more = [] ∨ ∃ child,more = [.insert sales.store.nextId child] ∧ child.settlement = none)
    (written : final.table = applyWrites sales.store.table (.update id save :: more))
    (quiet : legsOf rest = []) (journal : final.journal = sales.store.journal ++ (events ++ rest).map (id,·)) : SoldOn sales final terms (rowDue OrderRow.settlement row) := by
  have made : enqueued sales.store final =
      (salePlan lookups requester id order requestId courierId parties terms kind comment files paid time).legs := by
    rw [enqueued_sale journal,legsOf_append,legs,quiet,List.append_nil]
  have nonneg : 0 ≤ (salePlan lookups requester id order requestId courierId parties terms kind comment files paid time).settlement.branchAmount := by
    simp only [salePlan,saleSettlement]
    omega
  obtain ⟨sum,owed⟩ := settled_rows stored saved nonneg adds written
  have due : dueOf (salePlan lookups requester id order requestId courierId parties terms kind comment files paid time).settlement =
      SaleTerms.receivable terms := by
    simp only [salePlan,saleSettlement_due,SaleTerms.receivable]
    split
    · omega
    · rfl
  rw [due] at sum
  refine ⟨?_,?_,sum,owed⟩
  · intro user
    rw [made]
    exact (sale_moved charged user).1
  · rw [made]
    exact (sale_moved charged 0).2

theorem sale_sold {sales : Sales} (sells : soldOn sales.store.table call = some (terms,due)) (performed : Performs call.request sales.store final) :
    SoldOn sales final terms due := by
  cases call with
  | sell lookups requester id dto requestId =>
    obtain ⟨⟨row,parties⟩,found,same⟩ := Option.map_eq_some_iff.mp sells
    cases same
    obtain ⟨stored,courierId,acting,dealing⟩ := saleOf_parts found
    obtain ⟨row',plan,updated,stored',planned,-,table,journal⟩ := sellOrder_performs sales.keyed performed
    cases stored.symm.trans stored'
    obtain ⟨-,courierId',parties',_,_,_,acting',dealing',rfl⟩ := sellPlan_parts planned
    cases acting.symm.trans acting'
    cases dealing.symm.trans dealing'
    exact plan_sold stored (Int.le_max_right _ _) legsOf_sale (fun _ => rfl) (.inl rfl) table (legsOf_status _ _ _) journal
  | partlySell lookups requester id dto requestId token =>
    obtain ⟨⟨row,parties⟩,found,same⟩ := Option.map_eq_some_iff.mp sells
    cases same
    obtain ⟨stored,courierId,acting,dealing⟩ := saleOf_parts found
    obtain ⟨row',plan,updated,stored',planned,-,table,journal⟩ := partlySellOrder_performs sales.keyed performed
    cases stored.symm.trans stored'
    obtain ⟨-,courierId',parties',_,_,_,_,acting',dealing',sale⟩ := partlySellPlan_parts planned
    cases acting.symm.trans acting'
    cases dealing.symm.trans dealing'
    have legs := congrArg (fun plan => legsOf (SalePlan.events plan)) sale
    rw [partialSale_events,legsOf_sale] at legs
    have settlement := congrArg SalePlan.settlement sale
    exact plan_sold stored (Int.le_max_right _ _) legs (fun _ => congrArg some settlement) (.inr ⟨_,rfl,rfl⟩) table (legsOf_status _ _ _) journal
  | _ => cases sells

-- The consumers leave every cashbox with its owner, in whatever order they run.
theorem events_tidy (till : Till) (legs : List BalanceLeg) (now : Nat → Nat) (turns : List Turn) :
    Tidy (Finance.settle till.toBooks (legs.zipIdx.map fun entry => legJob (now entry.2) entry.1) turns).table := by
  have same : Finance.settle till.toBooks (legs.zipIdx.map fun entry => legJob (now entry.2) entry.1) turns =
      consume till.toBooks (legs.zipIdx.map fun entry => (now entry.2,entry.1.dto)) turns := by
    unfold Finance.settle consume
    rw [List.map_map,List.map_map]
    rfl
  rw [same]
  apply tidy_owns till.tidy
  intro key box stored
  have owned := consume_owned till.toBooks (legs.zipIdx.map fun entry => (now entry.2,entry.1.dto)) turns key
  rw [stored,Option.map_some] at owned
  obtain ⟨row,before,owner⟩ := Option.map_eq_some_iff.mp owned.symm
  cases row with
  | userSalary salary => cases owner
  | cashbox old =>
    simp only [Row.owner,Option.some.injEq,Prod.mk.injEq] at owner
    exact ⟨old,before,owner.1.symm,owner.2.1.symm,owner.2.2.symm⟩

theorem events_cashboxes {till : Till} {legs : List BalanceLeg} {now : Nat → Nat} {turns : List Turn}
    (all : AllApplied (legs.zipIdx.map fun entry => legJob (now entry.2) entry.1)
      (Finance.settle till.toBooks (legs.zipIdx.map fun entry => legJob (now entry.2) entry.1) turns)) :
    mainBalance (Finance.settle till.toBooks (legs.zipIdx.map fun entry => legJob (now entry.2) entry.1) turns).table =
        mainBalance till.table + moved (legs.map legMove) mainCashboxUserId .main ∧
      sumCashboxBalanceByType (Finance.settle till.toBooks (legs.zipIdx.map fun entry => legJob (now entry.2) entry.1) turns).table .forMarket =
        sumCashboxBalanceByType till.table .forMarket + movedOf (legs.map legMove) .forMarket := by
  have shift := settle_balances till.toBooks _ turns all
  rw [legJobs_flat] at shift
  exact cashboxes_moved till.keyed (settle_sound till.toBooks _ turns).keyed till.tidy (events_tidy till legs now turns) shift

theorem sale_exact {till : Till} {sales : Sales} {now : Nat → Nat} {turns : List Turn} (sells : soldOn sales.store.table call = some (terms,due))
    (performed : Performs call.request sales.store final)
    (all : AllApplied (eventJobs sales.store final now) (Finance.settle till.toBooks (eventJobs sales.store final now) turns)) :
    currentSituation (Finance.settle till.toBooks (eventJobs sales.store final now) turns).table (soldSettlements final) =
        currentSituation till.table (soldSettlements sales.store) + computeSellProfit terms.marketTariff terms.courierShare terms.branchShare ↔
      SaleNeutral till.table terms due := by
  obtain ⟨toMain,toMarkets,receivable,owed⟩ := sale_sold sells performed
  obtain ⟨main,markets⟩ := events_cashboxes all
  rw [situation_shift,eventJobs,main,markets,toMain,toMarkets,receivable_clamp owed,receivable_clamp sales.owed,receivable]
  unfold SaleNeutral hidden computeSellProfit SaleTerms.branchNet
  dsimp only
  omega

end Sale

-- Cashboxes of a market, a courier with 100 and a branch with 60, 100 000 soum in MAIN, and one
-- settlement row the courier owes 100 and the branch 60 for.
def stocked : List Finance.Call :=
  openAll ++ [.fillTheCashbox 6 ⟨7,100,none,some .forCourier,some "g"⟩,.fillTheCashbox 7 ⟨3,60,none,some .branch,some "h"⟩]
def stockedBooks : Books :=
  Finance.reached (show ∀ call ∈ stocked,call.Permitted by decide) ((List.range 7).flatMap fun who => List.replicate 4 (.step who 0))
theorem stocked_rows : stockedBooks.table = [(1,.cashbox ⟨0,0,0,.forMarket,1,false⟩),(2,.cashbox ⟨100,100,0,.forCourier,7,false⟩),
    (3,.cashbox ⟨60,60,0,.branch,3,false⟩),(4,.cashbox ⟨10000000,10000000,0,.main,0,false⟩)] := by
  decide
def stockedTill : Till where
  toBooks := stockedBooks
  tidy := by
    have rows : ∀ key box,stockedBooks.table.row key = some (.cashbox box) →
        box.isDeleted = false ∧ (box.userId = mainCashboxUserId ∧ box.cashboxType = .main → key = 4) := by
      intro key box stored
      have listed := (row_exact stockedBooks.keyed).mpr stored
      rw [stocked_rows] at listed
      simp only [List.mem_cons,List.not_mem_nil,or_false,Prod.mk.injEq,Row.cashbox.injEq] at listed
      rcases listed with ⟨rfl,rfl⟩ | ⟨rfl,rfl⟩ | ⟨rfl,rfl⟩ | ⟨rfl,rfl⟩
      · simp
      · simp
      · simp
      · simp
    constructor
    · intro key box stored
      exact (rows key box stored).1
    · intro left right a b atLeft atRight mainLeft mainRight
      exact ((rows left a atLeft).2 mainLeft).trans ((rows right b atRight).2 mainRight).symm

def oneDue (status : SettlementStatus) : Settlement.Dues where
  ledger := ⟨[(Settlement.settlementKey 0,.settlement 0 {Settlement.openRow with status:=status})],[],2⟩
  keyed := by simp [Table.Keyed]
  owed := by
    intro row member
    cases List.mem_singleton.mp member
    simp [Settlement.openRow]

theorem done_of {request : Finance.Request} {store : CashboxStore} (reply : Finance.Answer)
    (answered : (request.perform store).1 = some (.ok reply)) (fresh : reply.idempotent = false) : Done request store (request.perform store).2 :=
  ⟨reply,Prod.ext answered rfl,fresh⟩

-- The branch pays what it owes for the row, and the sample order is sold.
def branchRemits : Finance.Call := .paymentFromBranchToMain 50 ⟨3,60,none,some 5,some "b"⟩
def afterRemitted : CashboxStore := (branchRemits.request.perform stockedTill.store).2
def remitted : SettlementAdvance := ⟨.branchToHq,3,60,some 5,some "b"⟩
def sampleSales : Sales where
  store := sampleStore
  keyed := by simp [sampleStore,sampleTable,Table.Keyed]
  below := by simp [sampleStore,sampleTable]
  owed := by simp [soldSettlements,settlementRows,sampleStore,sampleTable,Owed]
def soldByCourier : Orders.Call := .sell (sampleLookups 3000000 1000) sampleCourier 11 {} (some "a")
def afterSale : OrderStore := leaves soldByCourier.request sampleStore
def courierTerms : SaleTerms := ⟨10000000,3000000,1500000,1500000,0,0,some 3,some 3⟩
def saleEvents : List Job := eventJobs sampleSales.store afterSale fun seq => 2000 + seq
def eventTurns : List Turn := (List.range 3).flatMap fun who => List.replicate 5 (.step who 0)

-- The courier pays 100 into MAIN; the branch is still expected to pay for the same order.
def paidIntoMain : Finance.Call := .paymentsFromCourier 50 ⟨7,100,none,none,some 5,none,none,some "p"⟩
def afterPaid : CashboxStore := (paidIntoMain.request.perform stockedTill.store).2
def paidAdvance : SettlementAdvance := ⟨.courierToBranch,7,100,some 5,some "p"⟩
end Elchi
