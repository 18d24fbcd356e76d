import Elchi.FinancialBalance
import Elchi.PaymentSafety
namespace Elchi.Finance
open RowLock

abbrev CashboxStore := Store Row CashboxHistory
def Books.store (books : Books) : CashboxStore := ⟨books.table,books.journal,books.nextId⟩
-- A request that ran alone and was applied, not recognised as the repetition of an earlier one.
def Done (request : Request) (store final : CashboxStore) : Prop :=
  ∃ done : Answer,request.perform store = (some (.ok done),final) ∧ done.idempotent = false

section Requests
variable {store final : CashboxStore}

theorem failed_done {error : RpcError} (done : Done (fail error) store final) : False := by
  obtain ⟨_,same,-⟩ := done
  cases same

theorem replayed_done {text : String} (done : Done (.commit note [] [] (answerReplay text)) store final) : False := by
  obtain ⟨_,same,fresh⟩ := done
  simp only [Prog.perform,answerReplay] at same
  split at same
  · cases same
    cases fresh
  · cases same

theorem commit_done {writes : List (Write Row)} {entries : Journal CashboxHistory} {code : Nat} {text : String}
    (done : Done (.commit note writes entries (answer code text)) store final) : final.table = applyWrites store.table writes := by
  obtain ⟨_,same,-⟩ := done
  simp only [Prog.perform,answer] at same
  split at same
  · cases same
    rfl
  · cases same

theorem lockCashbox_done {sel : Nat → Cashbox → Bool} {next : Option (Nat × Cashbox × List CashboxHistory) → Request}
    (keyed : store.table.Keyed) (done : Done (lockCashbox sel next) store final) :
    (∃ key box rows,store.table.row key = some (.cashbox box) ∧ sel key box = true ∧ Done (next (some (key,box,rows))) store final) ∨
    (∀ key box,store.table.row key = some (.cashbox box) → sel key box = false) ∧ Done (next none) store final := by
  obtain ⟨reply,same,fresh⟩ := done
  simp only [lockCashbox,Prog.perform] at same
  split at same
  · rename_i nothing
    right
    refine ⟨?_,reply,same,fresh⟩
    intro key box stored
    by_contra selected
    have listed : (key,Row.cashbox box) ∈ store.table.select (cashboxRow sel) :=
      List.mem_filter.mpr ⟨(row_exact keyed).mpr stored,by simpa [cashboxRow] using selected⟩
    rw [nothing] at listed
    cases listed
  · rename_i key row rest found
    left
    obtain ⟨stored,selected⟩ := select_row keyed (show (key,row) ∈ store.table.select (cashboxRow sel) by simp [found])
    cases row with
    | cashbox box => exact ⟨key,box,_,stored,selected,reply,same,fresh⟩
    | userSalary salary => cases selected

-- A lookup that has to find its cashbox.
theorem lockFound_done {sel : Nat → Cashbox → Bool} {next : Option (Nat × Cashbox × List CashboxHistory) → Request}
    (keyed : store.table.Keyed) (missing : next none = fail error) (done : Done (lockCashbox sel next) store final) :
    ∃ key box rows,store.table.row key = some (.cashbox box) ∧ sel key box = true ∧ Done (next (some (key,box,rows))) store final := by
  rcases lockCashbox_done keyed done with found | ⟨-,failed⟩
  · exact found
  · rw [missing] at failed
    exact (failed_done failed).elim

-- A new cashbox gets a key no row has.
theorem lockOrOpen_done {sel : Nat → Cashbox → Bool} {next : Nat → Cashbox → List (Write Row) → Request} (keyed : store.table.Keyed)
    (unused : store.table.row store.nextId = none) (done : Done (lockOrOpen sel userId type next) store final) :
    ∃ key box opened later,later.table = store.table ∧ Done (next key box opened) later final ∧
      (opened = [] ∧ store.table.row key = some (.cashbox box) ∨
       (∀ other another,store.table.row other = some (.cashbox another) → sel other another = false) ∧
        store.table.row key = none ∧ box = openedCashbox userId type ∧ opened = [.insert key (.cashbox box)]) := by
  rcases lockCashbox_done keyed done with ⟨key,box,rows,stored,-,done⟩ | ⟨none,reply,same,fresh⟩
  · exact ⟨key,box,[],store,rfl,done,.inl ⟨rfl,stored⟩⟩
  · rw [Prog.perform] at same
    exact ⟨store.nextId,_,_,{store with nextId:=store.nextId+1},rfl,⟨reply,same,fresh⟩,.inr ⟨none,unused,rfl,rfl⟩⟩

end Requests

section Tidy
variable {table : Table Row}

-- A cashbox whose owner is the one stored under the key.
def Owns (table : Table Row) (key : Nat) (box : Cashbox) : Prop := ∃ old,table.row key = some (.cashbox old) ∧
  box.cashboxType = old.cashboxType ∧ box.userId = old.userId ∧ box.isDeleted = old.isDeleted

theorem booked_owns {box : Cashbox} (owns : Owns table key box) (booked : book now override leg box = .ok (saved,row)) :
    Owns table key saved := by
  obtain ⟨old,stored,type,user,deleted⟩ := owns
  obtain ⟨savedType,savedUser,savedDeleted,-⟩ := updateBalancesByMethod_parts (book_parts booked).1
  exact ⟨old,stored,savedType.trans type,savedUser.trans user,savedDeleted.trans deleted⟩

theorem tidy_owns {after : Table Row} (tidy : Tidy table) (owned : ∀ key box,after.row key = some (.cashbox box) → Owns table key box) :
    Tidy after := by
  constructor
  · intro key box stored
    obtain ⟨old,before,-,-,deleted⟩ := owned key box stored
    exact deleted.trans (tidy.live key old before)
  · intro left right a b atLeft atRight mainLeft mainRight
    obtain ⟨oldLeft,beforeLeft,typeLeft,userLeft,-⟩ := owned left a atLeft
    obtain ⟨oldRight,beforeRight,typeRight,userRight,-⟩ := owned right b atRight
    rw [typeLeft,userLeft] at mainLeft
    rw [typeRight,userRight] at mainRight
    exact tidy.oneMain left right oldLeft oldRight beforeLeft beforeRight mainLeft mainRight

theorem tidy_saves {saves : List (Nat × Cashbox)} (tidy : Tidy table) (own : ∀ save ∈ saves,Owns table save.1 save.2) :
    Tidy (applyWrites table (saveAll saves)) := by
  have owned : ∀ key row,(applyWrites table (saveAll saves)).row key = some row → ∀ box,row = .cashbox box → Owns table key box := by
    apply applyWrites_keeps
    · intro key value member
      exact absurd member (saveAll_updates saves key value)
    · intro key save member value holds box same
      obtain ⟨saved,listed,written⟩ := List.mem_map.mp member
      cases written
      cases value with
      | cashbox old =>
        cases same
        exact own saved listed
      | userSalary salary => cases same
    · intro key value stored box same
      subst same
      exact ⟨box,stored,rfl,rfl,rfl⟩
  exact tidy_owns tidy fun key box stored => owned key _ stored box rfl

theorem tidy_opened (tidy : Tidy table) (key : Nat)
    (none : ∀ other another,table.row other = some (.cashbox another) → ¬(another.userId = userId ∧ another.cashboxType = type)) :
    Tidy (applyWrites table [.insert key (.cashbox (openedCashbox userId type))]) := by
  have rows : ∀ other,(applyWrites table [.insert key (.cashbox (openedCashbox userId type))]).row other =
      if key = other then some (.cashbox (openedCashbox userId type)) else table.row other := by
    intro other
    rw [applyWrites_row,written_cons,written_nil]
    rfl
  constructor
  · intro other box stored
    rw [rows] at stored
    split at stored
    · cases stored
      rfl
    · exact tidy.live other box stored
  · intro left right a b atLeft atRight mainLeft mainRight
    rw [rows] at atLeft atRight
    split at atLeft
    · split at atRight
      · rename_i here there
        exact here.symm.trans there
      · cases atLeft
        exact absurd (mainRight.imp (·.trans mainLeft.1.symm) (·.trans mainLeft.2.symm)) (none right b atRight)
    · split at atRight
      · cases atRight
        exact absurd (mainLeft.imp (·.trans mainRight.1.symm) (·.trans mainRight.2.symm)) (none left a atLeft)
      · exact tidy.oneMain left right a b atLeft atRight mainLeft mainRight

end Tidy

section Payments
variable {store final : CashboxStore}

-- The cashbox a payment goes into, found or opened on the way; the others stay as they are.
theorem receiver_tidy {table : Table Row} {sel : Nat → Cashbox → Bool} (tidy : Tidy table)
    (exactly : ∀ key box,table.row key = some (.cashbox box) → sel key box = false → ¬(box.userId = userId ∧ box.cashboxType = type))
    (opens : opened = [] ∧ table.row key = some (.cashbox box) ∨
      (∀ other another,table.row other = some (.cashbox another) → sel other another = false) ∧
        table.row key = none ∧ box = openedCashbox userId type ∧ opened = [.insert key (.cashbox box)]) :
    Tidy (applyWrites table opened) ∧ Owns (applyWrites table opened) key box ∧
      ∀ other another,table.row other = some (.cashbox another) → Owns (applyWrites table opened) other another := by
  rcases opens with ⟨rfl,stored⟩ | ⟨none,unused,rfl,rfl⟩
  · exact ⟨tidy,⟨box,stored,rfl,rfl,rfl⟩,fun other another here => ⟨another,here,rfl,rfl,rfl⟩⟩
  · refine ⟨tidy_opened tidy key fun other another here => exactly other another here (none other another here),⟨_,?_,rfl,rfl,rfl⟩,?_⟩
    · rw [applyWrites_row,written_cons,written_nil,Write.key,if_pos rfl]
      rfl
    · intro other another here
      refine ⟨another,?_,rfl,rfl,rfl⟩
      have apart : key ≠ other := by
        rintro rfl
        cases unused.symm.trans here
      rw [applyWrites_row,written_cons,written_nil,Write.key,if_neg apart,here]

theorem live_exactly {table : Table Row} (tidy : Tidy table) (key : Nat) (box : Cashbox) (stored : table.row key = some (.cashbox box))
    (passed : byUserType userId type key box = false) : ¬(box.userId = userId ∧ box.cashboxType = type) := by
  rintro ⟨rfl,rfl⟩
  simp [byUserType,tidy.live key box stored] at passed

theorem ever_exactly (key : Nat) (box : Cashbox) (passed : byUserTypeEver userId type key box = false) :
    ¬(box.userId = userId ∧ box.cashboxType = type) := by
  rintro ⟨rfl,rfl⟩
  simp [byUserTypeEver] at passed

theorem market_tidy (keyed : store.table.Keyed) (tidy : Tidy store.table) (done : Done (paymentsToMarket now data) store final) :
    0 < data.amount ∧ Tidy final.table := by
  unfold paymentsToMarket at done
  split at done
  · exact (failed_done done).elim
  rename_i positive
  obtain ⟨mainKey,main,rows,mainStored,-,done⟩ := lockFound_done keyed rfl done
  obtain ⟨marketKey,market,_,marketStored,-,done⟩ := lockFound_done keyed rfl done
  dsimp only at done
  split at done
  · exact (replayed_done done).elim
  split at done
  · exact (failed_done done).elim
  rename_i paid paidRow cleared clearedRow booked
  obtain ⟨first,second⟩ := bind_pair_parts booked
  refine ⟨by omega,?_⟩
  rw [commit_done done]
  apply @tidy_saves _ [(mainKey,paid),(marketKey,cleared)] tidy
  intro save member
  simp only [List.mem_cons,List.not_mem_nil,or_false] at member
  rcases member with rfl | rfl
  · exact booked_owns ⟨main,mainStored,rfl,rfl,rfl⟩ first
  · exact booked_owns ⟨market,marketStored,rfl,rfl,rfl⟩ second

theorem branch_tidy (keyed : store.table.Keyed) (unused : store.table.row store.nextId = none) (tidy : Tidy store.table)
    (done : Done (paymentFromBranchToMain now data) store final) : 0 < data.amount ∧ Tidy final.table := by
  unfold paymentFromBranchToMain at done
  split at done
  · exact (failed_done done).elim
  rename_i positive
  obtain ⟨branchKey,branch,rows,branchStored,-,done⟩ := lockFound_done keyed rfl done
  dsimp only at done
  split at done
  · exact (replayed_done done).elim
  obtain ⟨mainKey,main,opened,later,same,done,opens⟩ := lockOrOpen_done keyed unused done
  split at done
  · exact (failed_done done).elim
  rename_i paid paidRow got gotRow booked
  obtain ⟨first,second⟩ := bind_pair_parts booked
  obtain ⟨tidy,mainOwns,others⟩ := receiver_tidy tidy (fun key box _ => ever_exactly key box) opens
  refine ⟨by omega,?_⟩
  rw [commit_done done,same,applyWrites,List.foldl_append]
  apply @tidy_saves _ [(branchKey,paid),(mainKey,got)] tidy
  intro save member
  simp only [List.mem_cons,List.not_mem_nil,or_false] at member
  rcases member with rfl | rfl
  · exact booked_owns (others branchKey branch branchStored) first
  · exact booked_owns mainOwns second

theorem courier_tidy (keyed : store.table.Keyed) (unused : store.table.row store.nextId = none) (tidy : Tidy store.table)
    (done : Done (paymentsFromCourier now data) store final) :
    0 < data.amount ∧ (data.paymentMethod = some .clickToMarket → data.marketId.isSome = true) ∧ Tidy final.table := by
  unfold paymentsFromCourier at done
  split at done
  · exact (failed_done done).elim
  rename_i positive
  split at done
  · exact (failed_done done).elim
  rename_i named
  have toMarket : data.paymentMethod = some .clickToMarket → data.marketId.isSome = true := by
    intro click
    cases market : data.marketId with
    | none => exact absurd ⟨click,market⟩ named
    | some marketId => rfl
  obtain ⟨courierKey,courier,rows,courierStored,-,done⟩ := lockFound_done keyed rfl done
  dsimp only at done
  split at done
  · exact (replayed_done done).elim
  split at done
  · exact (failed_done done).elim
  obtain ⟨receiverKey,receiver,opened,later,same,done,opens⟩ := lockOrOpen_done keyed unused done
  split at done
  · exact (failed_done done).elim
  rename_i paid paidRow got gotRow booked
  obtain ⟨first,second⟩ := bind_pair_parts booked
  obtain ⟨tidy',receiverOwns,others⟩ := receiver_tidy tidy (live_exactly tidy) opens
  have paidOwns := booked_owns (others courierKey courier courierStored) first
  have gotOwns := booked_owns receiverOwns second
  refine ⟨by omega,toMarket,?_⟩
  split at done
  · rename_i marketId click market
    have laterKeyed : later.table.Keyed := same ▸ keyed
    obtain ⟨marketKey,box,_,marketStored,-,done⟩ := lockFound_done laterKeyed rfl done
    dsimp only at done
    split at done
    · exact (failed_done done).elim
    rename_i passed passedRow cleared clearedRow cleared'
    obtain ⟨third,fourth⟩ := bind_pair_parts cleared'
    rw [same] at marketStored
    rw [commit_done done,same,List.append_assoc,applyWrites,List.foldl_append]
    apply @tidy_saves _ [(courierKey,paid),(receiverKey,got),(receiverKey,passed),(marketKey,cleared)] tidy'
    intro save member
    simp only [List.mem_cons,List.not_mem_nil,or_false] at member
    rcases member with rfl | rfl | rfl | rfl
    · exact paidOwns
    · exact gotOwns
    · exact booked_owns gotOwns third
    · exact booked_owns (others marketKey box marketStored) fourth
  · rw [commit_done done,same,applyWrites,List.foldl_append]
    apply @tidy_saves _ [(courierKey,paid),(receiverKey,got)] tidy'
    intro save member
    simp only [List.mem_cons,List.not_mem_nil,or_false] at member
    rcases member with rfl | rfl
    · exact paidOwns
    · exact gotOwns

end Payments

-- What the finance service keeps, with its cashboxes in order.
structure Till extends Books where
  tidy : Tidy table

theorem till_unused (till : Till) : till.store.table.row till.store.nextId = none := by
  apply row_none.mpr
  intro member
  exact absurd (till.below _ member) (Nat.lt_irrefl _)

-- A request that runs alone is a run of the machine with one session.
theorem done_balances {books : Books} {job : Job} {final : CashboxStore} (done : Done job.request books.store final) (user : Nat)
    (type : CashboxType) : balanceOf final.table user type = balanceOf books.table user type + moved job.moves user type := by
  obtain ⟨reply,performed,fresh⟩ := done
  obtain ⟨turns,held,log,ended⟩ := perform_run performed [] []
  have settled : settle books [job] (List.replicate turns (.step 0 0)) = Machine.solo final (.done (.ok reply)) held log := ended
  have all : AllApplied [job] (settle books [job] (List.replicate turns (.step 0 0))) := by
    intro who inside
    have only : who = 0 := Nat.lt_one_iff.mp inside
    rw [settled,only]
    exact ⟨reply,held,rfl,fresh⟩
  have balances := settle_balances books [job] _ all user type
  rw [settled] at balances
  simpa [Machine.solo] using balances

def Call.moves : Call → List Move
  | .paymentsFromCourier _ data => data.moves
  | .paymentFromBranchToMain _ data => data.moves
  | .paymentsToMarket _ data => data.moves
  | _ => []

-- A transfer of any kind: it has passed its checks, its cashboxes are in order and its moves are made.
structure Transferred (till : Till) (call : Call) (paid : SettlementAdvance) (after : Table Row) : Prop where
  positive : 0 < paid.amount
  main : mainBalance after = mainBalance till.table + moved call.moves mainCashboxUserId .main
  markets : sumCashboxBalanceByType after .forMarket = sumCashboxBalanceByType till.table .forMarket + movedOf call.moves .forMarket

theorem transfer_made {till : Till} {job : Job} {call : Call} {final : CashboxStore} (done : Done job.request till.store final)
    (moves : job.moves = call.moves) (positive : 0 < paid.amount) (tidy : Tidy final.table) : Transferred till call paid final.table := by
  have keyed : final.table.Keyed := by
    obtain ⟨reply,performed,-⟩ := done
    have kept := @perform_keyed _ _ _ _ job.request till.store till.keyed
    rw [performed] at kept
    exact kept
  have shift := done_balances done
  rw [moves] at shift
  obtain ⟨main,markets⟩ := cashboxes_moved till.keyed keyed till.tidy tidy shift
  exact ⟨positive,main,markets⟩

theorem transfers_cashboxes {till : Till} {call : Call} {final : CashboxStore} (permitted : call.Permitted)
    (transfers : call.advance = some paid) (done : Done call.request till.store final) : Transferred till call paid final.table := by
  cases call with
  | paymentsFromCourier now data =>
    cases transfers
    obtain ⟨positive,-,tidy⟩ := courier_tidy till.keyed (till_unused till) till.tidy done
    exact @transfer_made _ _ (courierJob now data permitted) _ _ done rfl positive tidy
  | paymentFromBranchToMain now data =>
    cases transfers
    obtain ⟨positive,tidy⟩ := branch_tidy till.keyed (till_unused till) till.tidy done
    exact @transfer_made _ _ (branchJob now data) _ _ done rfl positive tidy
  | paymentsToMarket now data =>
    cases transfers
    obtain ⟨positive,tidy⟩ := market_tidy till.keyed till.tidy done
    exact @transfer_made _ _ (marketJob now data) _ _ done rfl positive tidy
  | _ => cases transfers

end Elchi.Finance

namespace Elchi.Settlement
open RowLock Orders

def settlementsOf (ledger : Ledger) : List OrderSettlement := settlementRows Record.settlement? ledger.table
-- The settlement rows, with no negative amount among them.
structure Dues where
  ledger : Ledger
  keyed : ledger.table.Keyed
  owed : Owed (settlementsOf ledger)

def levelOf : Finance.SettlementLevel → Level
  | .courierToBranch => .courierToBranch
  | .branchToHq => .branchToHq
  | .hqToMarket => .hqToMarket
-- The event a payment enqueued, delivered to the order service.
def advanceOf (paid : Finance.SettlementAdvance) (now : Nat) : Advance :=
  ⟨levelOf paid.level,some paid.matchValue,paid.amount,paid.requesterId,now⟩
def advanced (paid : Finance.SettlementAdvance) (now : Nat) (ledger : Ledger) : Ledger :=
  ((advanceSettlement (advanceOf paid now)).perform ledger).2

section Advance
variable {level : Level} {participant : Nat}

theorem settle_owed (dues : Dues) (payment : Payment) : Owed (settlementsOf (settle level participant payment dues.ledger).2) := by
  apply (settlementRows_owed _ (settle_keyed dues.keyed payment)).mpr
  rw [settle_spec]
  apply applyWrites_keeps
  · intro key value member
    obtain ⟨_,-,impossible⟩ := List.mem_map.mp member
    cases impossible
  · intro key write member value holds row found
    obtain ⟨_,-,same⟩ := List.mem_map.mp member
    cases same
    cases value with
    | order stored => cases found
    | settlement createdAt stored =>
      cases found
      have before := holds stored rfl
      cases level with
      | _ => exact before
  · exact (settlementRows_owed _ dues.keyed).mp dues.owed

-- Only a branch's payment takes rows out of the receivable.
theorem taken_due (dues : Dues) (payment : Payment) {entry : Nat × Record} (member : entry ∈ taken level participant payment dues.ledger) :
    ((dues.ledger.table.row entry.1).elim 0 fun record =>
      rowDue Record.settlement? (save level participant payment record) - rowDue Record.settlement? record) =
      if level = .branchToHq then -legOf level entry else 0 := by
  obtain ⟨key,record⟩ := entry
  obtain ⟨stored,selected⟩ := select_row dues.keyed (List.mem_mergeSort.mp ((taken_front payment dues.ledger).subset member))
  rw [stored,Option.elim_some]
  cases record with
  | order row => cases selected
  | settlement createdAt row =>
    have owed := (settlementRows_owed _ dues.keyed).mp dues.owed key _ stored row rfl
    simp only [candidate,Record.settlement?,Option.any_some,Bool.and_eq_true,beq_iff_eq,Bool.not_eq_true'] at selected
    obtain ⟨⟨own,status⟩,live⟩ := selected
    cases level with
    | courierToBranch =>
      simp only [Level.fromStatus] at status
      simp [rowDue,Record.settlement?,save,advanceRow,onSettlement,Payment.advance,Level.stamp,dueOf,receivable,status,live]
    | branchToHq =>
      simp only [Level.participant,Level.fromStatus] at own status
      simp [rowDue,Record.settlement?,save,advanceRow,onSettlement,Payment.advance,Level.stamp,dueOf,receivable,own,status,live,
        legOf,Level.leg,Level.amount,Int.max_eq_left owed]
    | hqToMarket =>
      simp only [Level.fromStatus] at status
      simp [rowDue,Record.settlement?,save,advanceRow,onSettlement,Payment.advance,Level.stamp,dueOf,receivable,status]

theorem taken_sum (entries : Table Record) (change : Nat → Int)
    (each : ∀ entry ∈ entries,change entry.1 = if level = .branchToHq then -legOf level entry else 0) :
    ((entries.map (·.1)).map change).sum = if level = .branchToHq then -Fifo.total (legOf level) entries else 0 := by
  induction entries with
  | nil => simp
  | cons entry rest ih =>
    have later := ih fun other member => each other (.tail _ member)
    rw [List.map_cons,List.map_cons,List.sum_cons,later,each entry List.mem_cons_self,Fifo.total_cons]
    split
    · omega
    · rfl

theorem settle_dues (dues : Dues) (payment : Payment) : ((settlementsOf (settle level participant payment dues.ledger).2).map dueOf).sum =
    ((settlementsOf dues.ledger).map dueOf).sum -
      if level = .branchToHq then Fifo.total (legOf level) (taken level participant payment dues.ledger) else 0 := by
  rw [settlementsOf,settlementsOf,settlementRows_due,settlementRows_due,settle_spec]
  dsimp only
  rw [weigh_updates (taken_keys dues.keyed payment) dues.keyed,taken_sum _ _ fun entry member => taken_due dues payment member]
  split
  · omega
  · omega

end Advance

-- What an advance takes out of the receivable; without a requester it settles nothing.
def takenOut (paid : Finance.SettlementAdvance) (now : Nat) (ledger : Ledger) : Int :=
  match levelOf paid.level,paid.requesterId with
  | .branchToHq,some actor => Fifo.total (legOf .branchToHq) (taken .branchToHq paid.matchValue ⟨paid.amount,actor,now⟩ ledger)
  | _,_ => 0

theorem advanced_receivable (dues : Dues) (paid : Finance.SettlementAdvance) (now : Nat) :
    max (branchReceivable (settlementsOf (advanced paid now dues.ledger))) 0 =
      max (branchReceivable (settlementsOf dues.ledger)) 0 - takenOut paid now dues.ledger := by
  rw [receivable_clamp dues.owed]
  cases requester : paid.requesterId with
  | none =>
    have same : advanced paid now dues.ledger = dues.ledger := by
      unfold advanced advanceOf advanceSettlement
      simp only [requester]
      split
      · simp only [runFifoSettlement,Prog.perform]
        split
        · rfl
        · rfl
      · rfl
    rw [same,receivable_clamp dues.owed]
    unfold takenOut
    rw [requester]
    simp
  | some actor =>
    have same : advanced paid now dues.ledger = (settle (levelOf paid.level) paid.matchValue ⟨paid.amount,actor,now⟩ dues.ledger).2 := by
      unfold advanced advanceOf settle Payment.advance
      rw [requester]
    rw [same,receivable_clamp (settle_owed dues _),settle_dues]
    unfold takenOut
    rw [requester]
    cases level : levelOf paid.level with
    | branchToHq => simp
    | _ => simp

end Elchi.Settlement

namespace Elchi
open RowLock Finance Settlement

-- When a transfer of each kind leaves the situation as it is.
def Neutral (cashboxes : Table Row) (ledger : Ledger) : Finance.Call → Prop
  | .paymentsFromCourier _ data =>
    if data.paymentMethod = some .clickToMarket then sumCashboxBalanceByType cashboxes .forMarket ≤ 0
    else ¬(data.receiver = mainCashboxUserId ∧ data.receiverType = .main)
  | .paymentFromBranchToMain _ data => data.createdBy.isSome = true ∧ ∃ front,front <+: queue .branchToHq data.branchId ledger ∧
      Fifo.total (legOf .branchToHq) front = data.amount
  | .paymentsToMarket _ data => data.amount ≤ sumCashboxBalanceByType cashboxes .forMarket
  | _ => False

theorem situation_shift {before after : Table Row} {old new : List Orders.OrderSettlement} :
    currentSituation after new = currentSituation before old + gain ↔
      (mainBalance after - mainBalance before) + (max (branchReceivable new) 0 - max (branchReceivable old) 0) =
        gain + (max (sumCashboxBalanceByType after .forMarket) 0 - max (sumCashboxBalanceByType before .forMarket) 0) := by
  unfold currentSituation
  dsimp only
  omega

theorem courier_moved (data : CourierPayment) (permitted : data.ToMainOrBranch) (named : data.paymentMethod = some .clickToMarket → data.marketId.isSome = true) :
    moved data.moves mainCashboxUserId .main = (if data.paymentMethod = some .clickToMarket ∨
        ¬(data.receiver = mainCashboxUserId ∧ data.receiverType = .main) then 0 else data.amount) ∧
      movedOf data.moves .forMarket = if data.paymentMethod = some .clickToMarket then -data.amount else 0 := by
  have kind : data.receiverType ≠ .forMarket := by
    rcases permitted with main | branch
    · simp [main]
    · simp [branch]
  by_cases click : data.paymentMethod = some .clickToMarket
  · obtain ⟨marketId,market⟩ := Option.isSome_iff_exists.mp (named click)
    have moves : data.moves = [⟨data.courierId,.forCourier,-data.amount⟩,⟨data.receiver,data.receiverType,data.amount⟩,
        ⟨data.receiver,data.receiverType,-data.amount⟩,⟨marketId,.forMarket,-data.amount⟩] := by
      unfold CourierPayment.moves
      rw [click,market]
      rfl
    rw [moves]
    by_cases main : data.receiver = mainCashboxUserId ∧ data.receiverType = .main
    · simp [moved,movedOf,Move.on,click,main]
    · simp [moved,movedOf,Move.on,click,main,kind]
  · rw [plain_courier_moves click]
    by_cases main : data.receiver = mainCashboxUserId ∧ data.receiverType = .main
    · simp [moved,movedOf,Move.on,click,main]
    · simp [moved,movedOf,Move.on,click,main,kind]

theorem transfer_exact {till : Till} {call : Finance.Call} {final : CashboxStore} {paid : SettlementAdvance} (permitted : call.Permitted)
    (transfers : call.advance = some paid) (done : Done call.request till.store final) (dues : Dues) (now : Nat) :
    currentSituation final.table (settlementsOf (advanced paid now dues.ledger)) = currentSituation till.table (settlementsOf dues.ledger) ↔
      Neutral till.table dues.ledger call := by
  obtain ⟨positive,main,markets⟩ := transfers_cashboxes permitted transfers done
  have receivable := advanced_receivable dues paid now
  rw [←Int.add_zero (currentSituation till.table _),situation_shift,main,markets,receivable]
  cases call with
  | paymentsFromCourier time data =>
    cases transfers
    obtain ⟨-,named,-⟩ := courier_tidy till.keyed (till_unused till) till.tidy done
    obtain ⟨toMain,toMarket⟩ := courier_moved data permitted named
    simp only [Finance.Call.moves,Neutral,toMain,toMarket]
    have none : takenOut data.advance now dues.ledger = 0 := rfl
    rw [none]
    change 0 < data.amount at positive
    by_cases click : data.paymentMethod = some .clickToMarket
    · simp only [click,true_or,if_true]
      omega
    · simp only [click,false_or,if_false]
      by_cases intoMain : data.receiver = mainCashboxUserId ∧ data.receiverType = .main
      · rw [if_neg (not_not.mpr intoMain)]
        apply iff_of_false ?_ (not_not.mpr intoMain)
        omega
      · rw [if_pos intoMain]
        apply iff_of_true ?_ intoMain
        omega
  | paymentFromBranchToMain time data =>
    cases transfers
    change 0 < data.amount at positive
    simp only [Finance.Call.moves,BranchPayment.moves,Neutral,moved,movedOf,Move.on,List.map_cons,List.map_nil,List.sum_cons,List.sum_nil]
    cases requester : data.createdBy with
    | none =>
      have none : takenOut (settlementAdvance .branchToHq data.branchId data.amount none (dedupKey data.dedupEpoch)) now dues.ledger = 0 := rfl
      rw [none]
      simp
      omega
    | some actor =>
      have used := @Fifo.pay_exact _ (legOf .branchToHq) (leg_nonneg .branchToHq) data.amount positive
        (queue .branchToHq data.branchId dues.ledger)
      have out : takenOut (settlementAdvance .branchToHq data.branchId data.amount (some actor) (dedupKey data.dedupEpoch)) now dues.ledger =
        Fifo.total (legOf .branchToHq) (Fifo.pay (legOf .branchToHq) data.amount (queue .branchToHq data.branchId dues.ledger)) := rfl
      rw [out,←used]
      simp
      omega
  | paymentsToMarket time data =>
    cases transfers
    change 0 < data.amount at positive
    have none : takenOut (settlementAdvance .hqToMarket data.marketId data.amount data.createdBy (dedupKey data.dedupEpoch)) now dues.ledger = 0 := rfl
    simp only [Finance.Call.moves,MarketPayment.moves,Neutral,moved,movedOf,Move.on,List.map_cons,List.map_nil,List.sum_cons,List.sum_nil,none]
    simp
    omega
  | _ => cases transfers

end Elchi
