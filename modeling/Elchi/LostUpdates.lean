import Elchi.SoldOrders
namespace Elchi.Orders
open RowLock

-- The columns a sale, a cancellation or a rollback settles.
structure MoneyColumns where
  status : OrderStatus
  toBePaid : Int
  paidAmount : Int
  soldAt : Option Nat
  marketTariff : Option Int
  courierTariff : Option Int
  courierShare : Option Int
  branchShare : Option Int
  branchCashboxAmount : Option Int
deriving DecidableEq, Repr

def Order.money (order : Order) : MoneyColumns :=
  ⟨order.status,order.toBePaid,order.paidAmount,order.soldAt,order.marketTariff,order.courierTariff,order.courierShare,
   order.branchShare,order.branchCashboxAmount⟩
-- The named columns take the dto's value, the others keep theirs.
def UpdateDto.money (dto : UpdateDto) (old : MoneyColumns) : MoneyColumns :=
  ⟨dto.status.getD old.status,dto.toBePaid.getD old.toBePaid,dto.paidAmount.getD old.paidAmount,dto.soldAt.getD old.soldAt,
   dto.marketTariff.getD old.marketTariff,dto.courierTariff.getD old.courierTariff,dto.courierShare.getD old.courierShare,
   dto.branchShare.getD old.branchShare,dto.branchCashboxAmount.getD old.branchCashboxAmount⟩

-- What a commit names: the dto of an update, or the one its operation hands to updateFull.
def named (note : Note) : UpdateDto :=
  match note.call,note.loaded with
  | .sell lookups requester id dto requestId,some loaded =>
    ((sellPlan lookups requester id loaded dto requestId).toOption.map (·.update)).getD {}
  | .cancel lookups requester id dto requestId,some loaded =>
    ((cancelPlan lookups requester id loaded dto requestId).toOption.map (·.update)).getD {}
  | .rollback lookups requester id targetStatus requestId,some loaded =>
    match rollbackTarget targetStatus with
    | .ok target => ((rollbackPlan lookups requester id loaded target requestId).toOption.map (·.update)).getD {}
    | .error _ => {}
  | .update _ _ _ dto,some _ => dto
  | _,_ => {}
def lastNamed (first : MoneyColumns) (log : List OrderCommit) : MoneyColumns :=
  log.foldl (fun money commit => (named commit.note).money money) first

-- An order without the columns updateFull recomputes by itself.
def Order.settled (order : Order) : Order :=
  {order with
    holderType:=.hq,holderBranchId:=none,holderCourierId:=none,lastHandoverAt:=none,lastHandoverBy:=none,updatedAt:=0}
-- The row with the dto's columns written over it and nothing else.
def UpdateDto.over (dto : UpdateDto) (order : Order) : Order := (updateEntity dto (dto.assign order)).settled

-- An update of the order changed no column its dto does not name.
def OnlyNamed (id : Nat) (commit : OrderCommit) : Prop :=
  ∀ lookups requesterId dto loaded,commit.note.call = .update lookups requesterId id dto → commit.note.loaded = some loaded →
    (commit.after.row id).map (·.order.settled) = (commit.before.row id).map fun row => dto.over row.order
-- When it saves, the stored row still has what it read in every column its dto does not name.
def Fresh (id : Nat) (commit : OrderCommit) : Prop :=
  ∀ lookups requesterId dto loaded,commit.note.call = .update lookups requesterId id dto → commit.note.loaded = some loaded →
    ∀ row,commit.before.row id = some row → dto.over loaded = dto.over row.order

def Call.Touches (id : Nat) : Call → Prop
  | .sell _ _ order _ _ => order = id
  | .cancel _ _ order _ _ => order = id
  | .rollback _ _ order _ _ => order = id
  | .update _ _ order dto => order = id ∧ dto.status = none
  | _ => False

theorem over_money (dto : UpdateDto) (order : Order) : (dto.over order).money = dto.money order.money := rfl
theorem settled_money (order : Order) : order.settled.money = order.money := rfl

theorem saveOrder_settled (now : Nat) (entity stored : Order) : (saveOrder now entity stored).settled = entity.settled := by
  obtain ⟨_,same⟩ := saveOrder_parts now entity stored
  rw [same]
  rfl
theorem updatedOrder_settled (lookups : Lookups) (requesterId : Option Nat) (dto : UpdateDto) (order : Order) :
    (updatedOrder lookups requesterId dto order).settled = (dto.assign order).settled := by
  obtain ⟨_,_,_,_,_,same⟩ := updatedOrder_parts lookups requesterId dto order
  rw [same]
  rfl
theorem update_saved (passed : updateOrder lookups requesterId dto loaded = .ok updated) (now : Nat) (stored : OrderRow) :
    (saveRow now (updateEntity dto updated) stored).order.settled = dto.over loaded := by
  obtain ⟨rfl,-⟩ := updateOrder_parts passed
  obtain ⟨_,_,_,_,_,same⟩ := updatedOrder_parts lookups requesterId dto loaded
  rw [saveRow,saveOrder_settled,same]
  rfl

-- A saved row has the money columns of the entity, and the entity those the dto names.
theorem save_money (passed : updateOrder lookups requesterId dto order = .ok updated) (now : Nat) (stored : Order) :
    (saveOrder now updated stored).money = dto.money order.money := by
  obtain ⟨rfl,-⟩ := updateOrder_parts passed
  rw [←settled_money,saveOrder_settled,updatedOrder_settled]
  rfl

theorem update_row (before : Table OrderRow) (id : Nat) (save : OrderRow → OrderRow) :
    (applyWrites before [.update id save]).row id = (before.row id).map save := by
  rw [applyWrites_row,written_update,if_pos rfl,written_nil]

theorem rollback_row (before : Table OrderRow) {id : Nat} (here : before.row id = some stored) (now : Nat) (children : Table OrderRow)
    (loaded : Order) (items : List OrderItem) (updated : Order) :
    ∃ merged,((applyWrites before (rollbackWrites now id children loaded items updated)).row id).map (·.order) =
      some (saveOrder now updated merged) := by
  rw [applyWrites_row,rollbackWrites,written_append]
  cases current : written (children.map (deleteChild now)) id (before.row id) with
  | none => exact absurd current (written_present _ (by simp [here]))
  | some row =>
    rw [written_update,if_pos rfl,written_nil]
    exact ⟨_,rfl⟩

-- A commit of the order writes the money columns it names, an update provided it is fresh.
theorem commit_money {id : Nat} {commit : OrderCommit} (made : Transaction commit.held commit.note commit.writes commit.entries)
    (sees : Sees commit.held commit.before) (touches : commit.note.call.Touches id) (fresh : Fresh id commit) :
    (commit.after.row id).map (·.order.money) = (commit.before.row id).map fun row => (named commit.note).money row.order.money := by
  obtain ⟨who,note,held,before,writes,entries⟩ := commit
  dsimp only at made sees touches
  change ((applyWrites before writes).row id).map _ = _
  cases made with
  | sell planned locked waiting passed =>
    cases touches
    rw [update_row,locks_row locked sees]
    simp [soldRow,saveRow,save_money passed,named,planned,Except.toOption]
  | cancel planned locked waiting passed =>
    cases touches
    rw [update_row,locks_row locked sees]
    simp [saveRow,save_money passed,named,planned,Except.toOption]
  | rollback target allowed planned locked unchanged passed merged =>
    cases touches
    rename_i loaded _ _ _ stored updated children _
    have here := locks_row locked sees
    obtain ⟨merged,saved⟩ := rollback_row before here _ children loaded _ updated
    have columns := congrArg (Option.map Order.money) saved
    rw [Option.map_map,Option.map_some,save_money passed] at columns
    rw [here]
    simpa [Function.comp_def,named,target,planned,Except.toOption] using columns
  | items edit =>
    cases touches.1
    rw [update_row,Option.map_map]
    rfl
  | update passed =>
    cases touches.1
    rename_i lookups _ _ loaded updated
    rw [update_row,Option.map_map]
    cases here : before.row _ with
    | none => rfl
    | some row =>
      have same := fresh _ _ _ loaded rfl rfl row here
      have columns := congrArg Order.money ((update_saved passed lookups.now row).trans same)
      rw [settled_money,over_money] at columns
      exact congrArg some columns
  | _ => cases touches

theorem onlyNamed_exact {id : Nat} {commit : OrderCommit} (made : Transaction commit.held commit.note commit.writes commit.entries) :
    OnlyNamed id commit ↔ Fresh id commit := by
  obtain ⟨who,note,held,before,writes,entries⟩ := commit
  dsimp only at made
  unfold OnlyNamed Fresh Commit.after
  dsimp only
  cases made with
  | update passed =>
    rename_i loaded updated order
    constructor
    · intro only lookups requesterId dto read call same row here
      cases call
      cases same
      have saved := only _ _ _ _ rfl rfl
      rw [update_row,here,Option.map_some,Option.map_some,Option.map_some,update_saved passed] at saved
      exact Option.some.inj saved
    · intro fresh lookups requesterId dto read call same
      cases call
      cases same
      rw [update_row]
      cases here : before.row id with
      | none => rfl
      | some row =>
        rw [Option.map_some,Option.map_some,Option.map_some,update_saved passed]
        exact congrArg some (fresh _ _ _ _ rfl rfl row here)
  | items edit =>
    constructor
    · intro _ _ _ _ _ _ absent
      cases absent
    · intro _ _ _ _ _ _ absent
      cases absent
  | _ =>
    constructor
    · intro _ _ _ _ _ call
      cases call
    · intro _ _ _ _ _ call
      cases call

theorem replays_money {id : Nat} {first last : Table OrderRow} {log : List OrderCommit} (path : Replays first log last)
    (made : ∀ commit ∈ log,commit.note.call.Touches id ∧ Transaction commit.held commit.note commit.writes commit.entries ∧
      Sees commit.held commit.before) (fresh : ∀ commit ∈ log,Fresh id commit) :
    (last.row id).map (·.order.money) = (first.row id).map fun row => lastNamed row.order.money log := by
  suffices named : ∀ start,(first.row id).map (·.order.money) = start →
      (last.row id).map (·.order.money) = start.map fun money => lastNamed money log by
    rw [named _ rfl,Option.map_map]
    rfl
  induction log generalizing first with
  | nil =>
    cases path
    intro start here
    simpa [lastNamed] using here
  | cons commit rest ih =>
    intro start here
    obtain ⟨touches,transaction,sees⟩ := made commit List.mem_cons_self
    have step := commit_money transaction sees touches (fresh commit List.mem_cons_self)
    have tail := ih path.2 (fun other member => made other (List.mem_cons_of_mem _ member))
      (fun other member => fresh other (List.mem_cons_of_mem _ member)) _ step
    rw [tail,path.1,←here,Option.map_map,Option.map_map]
    rfl

-- Only a rollback takes the order out of the sold states when the updates are fresh.
theorem fresh_keeps_sold {id : Nat} {commit : OrderCommit} (made : Transaction commit.held commit.note commit.writes commit.entries)
    (sees : Sees commit.held commit.before) (touches : commit.note.call.Touches id) (fresh : Fresh id commit)
    (leaves : leavesSold id commit = true) : commit.note.call.isRollback = true := by
  have step := congrArg (Option.map MoneyColumns.status) (commit_money made sees touches fresh)
  rw [Option.map_map,Option.map_map] at step
  cases call : commit.note.call with
  | rollback lookups requester order target requestId => rfl
  | update lookups requesterId order dto =>
    have unnamed : (named commit.note).status = none := by
      have silent : dto.status = none := by
        rw [call] at touches
        exact touches.2
      unfold named
      rw [call]
      cases commit.note.loaded with
      | none => rfl
      | some loaded => exact silent
    have kept : statusAt commit.after id = statusAt commit.before id := by
      simpa [statusAt,Function.comp_def,UpdateDto.money,unnamed,Order.money] using step
    rw [kept_status kept] at leaves
    cases leaves
  | sell lookups requester order dto requestId =>
    have contends : commit.note.call.Contends id := by
      rw [call] at touches ⊢
      exact touches
    have waiting := (transaction_closes made sees contends (by rw [call]; rfl)).1
    rw [unsold_before (by rw [soldIn,waiting]; rfl)] at leaves
    cases leaves
  | cancel lookups requester order dto requestId =>
    have contends : commit.note.call.Contends id := by
      rw [call] at touches ⊢
      exact touches
    have waiting := (transaction_closes made sees contends (by rw [call]; rfl)).1
    rw [unsold_before (by rw [soldIn,waiting]; rfl)] at leaves
    cases leaves
  | _ =>
    rw [call] at touches
    cases touches

-- Over any interleaving: every column is that of the last commit that named it exactly when no
-- update saves over a row that changed under it.
theorem no_lost_update_exact {id : Nat} {table : Table OrderRow} (keyed : table.Keyed) (below : ∀ key ∈ table.map (·.1),key < nextId)
    {calls : List Call} (touch : ∀ call ∈ calls,call.Touches id) (turns : List Turn) :
    ((∀ commit ∈ (serve table nextId calls turns).log,OnlyNamed id commit ∧
        (leavesSold id commit = true → commit.note.call.isRollback = true)) ∧
      ((serve table nextId calls turns).table.row id).map (·.order.money) =
        (table.row id).map fun row => lastNamed row.order.money (serve table nextId calls turns).log) ↔
    ∀ commit ∈ (serve table nextId calls turns).log,Fresh id commit := by
  have made : ∀ commit ∈ (serve table nextId calls turns).log,commit.note.call.Touches id ∧
      Transaction commit.held commit.note commit.writes commit.entries ∧ Sees commit.held commit.before := by
    intro commit member
    obtain ⟨listed,transaction,sees⟩ := serve_logged keyed below member
    exact ⟨touch _ listed,transaction,sees⟩
  constructor
  · rintro ⟨only,-⟩ commit member
    exact (onlyNamed_exact (made commit member).2.1).mp (only commit member).1
  · intro fresh
    refine ⟨?_,replays_money (serve_replays table nextId calls turns) made fresh⟩
    intro commit member
    obtain ⟨touches,transaction,sees⟩ := made commit member
    exact ⟨(onlyNamed_exact transaction).mpr (fresh commit member),
      fresh_keeps_sold transaction sees touches (fresh commit member)⟩

-- An operator adds a comment while the courier sells: the update reads before the sale's commit
-- and saves after it.
def saleAndComment : List Call :=
  [.sell (sampleLookups 3000000 1000) sampleCourier 11 {} (some "a"),
   .update (sampleLookups 3000000 1001) (some 8) 11 {comment:=some "qo'ng'iroq qiling"}]
def commentAroundSale : List Turn := [.step 1 0,.step 0 0,.step 0 0,.step 0 0,.step 0 0,.step 1 0]
def commentAfterSale : List Turn := [.step 0 0,.step 0 0,.step 0 0,.step 0 0,.step 1 0,.step 1 0]

theorem saleAndComment_touch : ∀ call ∈ saleAndComment,call.Touches 11 := by
  intro call member
  simp only [saleAndComment,List.mem_cons,List.not_mem_nil,or_false] at member
  rcases member with rfl | rfl
  · rfl
  · exact ⟨rfl,rfl⟩

theorem no_lost_update_comment_first :
    (serve sampleTable 12 saleAndComment commentAroundSale).log.length = 2 ∧
    ¬∀ commit ∈ (serve sampleTable 12 saleAndComment commentAroundSale).log,Fresh 11 commit := by
  refine ⟨by decide,fun fresh => ?_⟩
  have kept := ((no_lost_update_exact (by decide) (by decide) saleAndComment_touch commentAroundSale).mpr fresh).2
  revert kept
  decide

theorem sale_lost_to_comment :
    statusAt (serve sampleTable 12 saleAndComment commentAroundSale).table 11 = some .waiting ∧
    (serve sampleTable 12 saleAndComment commentAroundSale).log.all (fun commit => !commit.note.call.isRollback) = true ∧
    (lastNamed sampleOrder.money (serve sampleTable 12 saleAndComment commentAroundSale).log).status = .sold ∧
    statusAt (serve sampleTable 12 saleAndComment commentAfterSale).table 11 = some .sold := by
  decide

end Elchi.Orders
