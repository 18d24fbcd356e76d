import Elchi.CashboxTotals
namespace Elchi.Finance
open RowLock

-- From one balance to the next, row by row; each row repeats the split it leaves behind.
def Running : Int → List CashboxHistory → Int → Prop
  | opening,[],closing => opening = closing
  | opening,row :: rest,closing => row.balanceAfter = opening + row.signed ∧
      row.balanceAfter = row.balanceCashAfter + row.balanceCardAfter ∧ Running row.balanceAfter rest closing

def Ledger (cashbox : Cashbox) (rows : List CashboxHistory) : Prop :=
  cashbox.balance = cashbox.balanceCash + cashbox.balanceCard ∧ Running 0 rows cashbox.balance
def RowLedger (_ : Nat) : Row → List CashboxHistory → Prop
  | .cashbox cashbox,rows => Ledger cashbox rows
  | .userSalary _,rows => rows = []

-- As the gateway sends it: a courier pays into the main cashbox or into a branch.
def CourierPayment.ToMainOrBranch (data : CourierPayment) : Prop := data.receiverType = .main ∨ data.receiverType = .branch
-- A cashbox is opened empty, and a courier's payment goes to MAIN or BRANCH; all else is free.
def Call.Permitted : Call → Prop
  | .createCashbox dto => dto.entity = openedCashbox dto.userId dto.cashboxType
  | .paymentsFromCourier _ data => data.ToMainOrBranch
  | _ => True
instance (call : Call) : Decidable call.Permitted := by
  cases call <;> unfold Call.Permitted CourierPayment.ToMainOrBranch <;> infer_instance

theorem Running.snoc {rows : List CashboxHistory} (path : Running opening rows middle)
    (next : row.balanceAfter = middle + row.signed) (split : row.balanceAfter = row.balanceCashAfter + row.balanceCardAfter) :
    Running opening (rows ++ [row]) row.balanceAfter := by
  induction rows generalizing opening with
  | nil =>
    cases path
    exact ⟨next,split,rfl⟩
  | cons head rest ih => exact ⟨path.1,path.2.1,ih path.2.2⟩

theorem Running.sum {rows : List CashboxHistory} (path : Running opening rows closing) :
    closing = opening + (rows.map fun row => row.signed).sum := by
  induction rows generalizing opening with
  | nil =>
    cases path
    simp
  | cons row rest ih =>
    obtain ⟨next,-,tail⟩ := path
    rw [ih tail,next,List.map_cons,List.sum_cons]
    omega

theorem book_ledger (ledger : Ledger cashbox rows) (booked : book now override leg cashbox = .ok (saved,row)) :
    Ledger saved (rows ++ [row]) := by
  obtain ⟨updated,sameLeg,-,after,cash,card⟩ := book_parts booked
  obtain ⟨-,-,-,normal,moved⟩ := updateBalancesByMethod_parts updated
  have signed : row.signed = sign leg.operationType * leg.amount := by
    rw [sameLeg]
    rfl
  refine ⟨normal,?_⟩
  rw [←after]
  refine ledger.2.snoc ?_ (by rw [after,cash,card,normal])
  rw [after,normal,moved,signed,ledger.1]

theorem opened_ledger (userId : Nat) (type : CashboxType) : Ledger (openedCashbox userId type) [] := ⟨rfl,rfl⟩

def AnyCommit : Guarantee Row CashboxHistory Movement := fun _ _ _ _ _ => True
def AnyReply : Reply Movement (Except RpcError Answer) := fun _ _ => True

theorem lockCashbox_safe {I : Nat → Row → List CashboxHistory → Prop} {held : List (Held Row CashboxHistory)}
    (missing : Safe I G A (next none) held notes)
    (locked : ∀ key cashbox rows,sel key cashbox = true → I key (.cashbox cashbox) rows →
      (∀ h ∈ held,h.key = key → h.row = some (.cashbox cashbox) ∧ h.slice = rows) →
      Safe I G A (next (some (key,cashbox,rows))) (⟨key,some (.cashbox cashbox),rows⟩ :: held) notes) :
    Safe I G A (lockCashbox sel next) held notes := by
  refine ⟨missing,?_⟩
  intro key row rows selected holds agrees
  cases row with
  | cashbox cashbox => exact locked key cashbox rows selected holds agrees
  | userSalary salary => cases selected

-- The second cashbox of a transfer as the program knows it: a locked row, or a row it opens itself.
def Opening (entry : Held Row CashboxHistory) (cashbox : Cashbox) (opened : List (Write Row)) : Prop :=
  (entry.row = some (.cashbox cashbox) ∧ opened = []) ∨
  (entry.row = none ∧ entry.slice = [] ∧ Ledger cashbox [] ∧ opened = [.insert entry.key (.cashbox cashbox)])

theorem lockOrOpen_safe {held : List (Held Row CashboxHistory)}
    (typed : ∀ key cashbox,sel key cashbox = true → cashbox.userId = userId ∧ cashbox.cashboxType = type)
    (others : ∀ h ∈ held,∃ cashbox,h.row = some (.cashbox cashbox) ∧ cashbox.cashboxType ≠ type)
    (continues : ∀ entry cashbox opened,Opening entry cashbox opened → cashbox.userId = userId → cashbox.cashboxType = type →
      (∀ h ∈ held,h.key ≠ entry.key) → Safe RowLedger G A (next entry.key cashbox opened) (entry :: held) notes) :
    Safe RowLedger G A (lockOrOpen sel userId type next) held notes := by
  refine lockCashbox_safe ?_ ?_
  · intro key unused
    exact continues ⟨key,none,[]⟩ _ _ (.inr ⟨rfl,rfl,opened_ledger userId type,rfl⟩) rfl rfl unused
  · intro key cashbox rows selected _ agrees
    obtain ⟨ownUser,ownType⟩ := typed key cashbox selected
    refine continues ⟨key,some (.cashbox cashbox),rows⟩ cashbox [] (.inl ⟨rfl,rfl⟩) ownUser ownType ?_
    intro h member same
    obtain ⟨other,row,different⟩ := others h member
    obtain ⟨sameRow,-⟩ := agrees h member same
    rw [row] at sameRow
    cases sameRow
    exact different ownType

-- Seen at one key, a transfer between two cashboxes is at most one booked movement.
theorem pair_written (apart : left ≠ right) (atLeft : key = left → row = some (.cashbox a))
    (atRight : key = right → row = some (.cashbox b)) :
    written [saveCashbox left a',saveCashbox right b'] key row =
      if key = left then some (.cashbox a') else if key = right then some (.cashbox b') else row := by
  simp only [written_cons,written_nil,saveCashbox_key]
  by_cases isLeft : key = left
  · subst isLeft
    rw [atLeft rfl]
    simp [Ne.symm apart]
  · by_cases isRight : key = right
    · subst isRight
      rw [atRight rfl]
      simp [apart,isLeft]
    · simp [Ne.symm isLeft,isLeft,Ne.symm isRight,isRight]

theorem pair_fits (fits : Fits RowLedger key row rows) (apart : left ≠ right) (atLeft : key = left → row = some (.cashbox a))
    (atRight : key = right → row = some (.cashbox b)) (bookedLeft : book now o leg a = .ok (a',rowA))
    (bookedRight : book now' o' leg' b = .ok (b',rowB)) :
    Fits RowLedger key (written [saveCashbox left a',saveCashbox right b'] key row)
      (rows ++ slice [(left,rowA),(right,rowB)] key) := by
  rw [pair_written apart atLeft atRight]
  simp only [slice_cons,slice_nil]
  by_cases isLeft : key = left
  · subst isLeft
    rw [atLeft rfl] at fits
    have kept : Fits RowLedger key (some (.cashbox a')) (rows ++ [rowA]) := book_ledger fits bookedLeft
    simpa [Ne.symm apart] using kept
  · by_cases isRight : key = right
    · subst isRight
      rw [atRight rfl] at fits
      have kept : Fits RowLedger key (some (.cashbox b')) (rows ++ [rowB]) := book_ledger fits bookedRight
      simpa [isLeft,Ne.symm isLeft] using kept
    · simpa [Ne.symm isLeft,isLeft,Ne.symm isRight,isRight] using fits

theorem opening_inserts (opening : Opening entry cashbox opened) (member : .insert key value ∈ opened) : entry.key = key := by
  rcases opening with ⟨-,rfl⟩ | ⟨-,-,-,rfl⟩
  · cases member
  · cases List.mem_singleton.mp member
    rfl

theorem opening_parts (fits : Fits RowLedger key row rows) (opening : Opening entry cashbox opened)
    (agrees : entry.key = key → entry.row = row ∧ entry.slice = rows) :
    Fits RowLedger key (written opened key row) rows ∧ (key = entry.key → written opened key row = some (.cashbox cashbox)) ∧
      (key ≠ entry.key → written opened key row = row) := by
  rcases opening with ⟨locked,rfl⟩ | ⟨none,empty,ledger,rfl⟩
  · refine ⟨fits,?_,fun _ => rfl⟩
    rintro rfl
    exact (agrees rfl).1.symm.trans locked
  · by_cases here : entry.key = key
    · obtain ⟨-,rows⟩ := agrees here
      subst here
      rw [empty] at rows
      subst rows
      have inserted : written [.insert entry.key (Row.cashbox cashbox)] entry.key row = some (.cashbox cashbox) := by
        simp [written_cons,Write.key,Write.result]
      rw [inserted]
      exact ⟨ledger,fun _ => rfl,fun different => absurd rfl different⟩
    · have untouched : written [.insert entry.key (Row.cashbox cashbox)] key row = row := by
        simp [written_cons,Write.key,here]
      rw [untouched]
      exact ⟨fits,fun same => absurd same.symm here,fun _ => rfl⟩

theorem transfer_fits (fits : Fits RowLedger key row rows) (opening : Opening entry b opened) (apart : left ≠ entry.key)
    (agrees : entry.key = key → entry.row = row ∧ entry.slice = rows) (atLeft : key = left → row = some (.cashbox a))
    (bookedLeft : book now o leg a = .ok (a',rowA)) (bookedRight : book now' o' leg' b = .ok (b',rowB)) :
    Fits RowLedger key (written (opened ++ [saveCashbox left a',saveCashbox entry.key b']) key row)
      (rows ++ slice [(left,rowA),(entry.key,rowB)] key) ∧
    (key = entry.key → written (opened ++ [saveCashbox left a',saveCashbox entry.key b']) key row = some (.cashbox b')) ∧
    (key ≠ left → key ≠ entry.key → written (opened ++ [saveCashbox left a',saveCashbox entry.key b']) key row = row) := by
  obtain ⟨fitsOpened,atRight,elsewhere⟩ := opening_parts fits opening agrees
  have atLeftOpened : key = left → written opened key row = some (.cashbox a) := by
    intro isLeft
    rw [elsewhere (fun isRight => apart (isLeft.symm.trans isRight))]
    exact atLeft isLeft
  rw [written_append]
  refine ⟨pair_fits fitsOpened apart atLeftOpened atRight bookedLeft bookedRight,?_,?_⟩
  · rintro rfl
    rw [pair_written apart atLeftOpened atRight]
    simp [Ne.symm apart]
  · intro notLeft notRight
    rw [pair_written apart atLeftOpened atRight,elsewhere notRight]
    simp [notLeft,notRight]

-- Opening a cashbox moves nothing, and leaves the receiver's row as the transfer knows it.
theorem opening_moves {table : Table Row} (keyed : table.Keyed) (normal : Normal table) (opening : Opening entry b opened)
    (atEntry : table.row entry.key = entry.row) : (applyWrites table opened).Keyed ∧
      (applyWrites table opened).row entry.key = some (.cashbox b) ∧ b.balance = b.balanceCash + b.balanceCard ∧
      (∀ key,key ≠ entry.key → (applyWrites table opened).row key = table.row key) ∧
      ∀ user type,balanceOf (applyWrites table opened) user type = balanceOf table user type := by
  refine ⟨applyWrites_keyed opened keyed,?_⟩
  rcases opening with ⟨locked,rfl⟩ | ⟨absent,-,⟨split,zero⟩,rfl⟩
  · rw [locked] at atEntry
    exact ⟨atEntry,normal _ _ atEntry,fun _ _ => rfl,fun _ _ => rfl⟩
  · rw [absent] at atEntry
    refine ⟨?_,split,?_,?_⟩
    · simp [applyWrites_row,written_cons,Write.key,Write.result]
    · intro key other
      simp [applyWrites_row,written_cons,Write.key,Ne.symm other]
    · intro user type
      have put := balanceOf_put keyed entry.key (.cashbox b) user type
      have empty : b.balance = 0 := zero.symm
      have applied : applyWrites table [.insert entry.key (.cashbox b)] = table.put entry.key (.cashbox b) := rfl
      rw [applied]
      simpa [atEntry,Row.holds,empty] using put

theorem transfer_moves {table : Table Row} (keyed : table.Keyed) (normal : Normal table) (opening : Opening entry b opened)
    (apart : left ≠ entry.key) (atLeft : table.row left = some (.cashbox a)) (atEntry : table.row entry.key = entry.row)
    (bookedLeft : book now o leg a = .ok (a',rowA)) (bookedRight : book now' o' leg' b = .ok (b',rowB)) (user : Nat) (type : CashboxType) :
    balanceOf (applyWrites table (opened ++ [saveCashbox left a',saveCashbox entry.key b'])) user type = balanceOf table user type +
      moved [⟨a.userId,a.cashboxType,leg.signed⟩,⟨b.userId,b.cashboxType,leg'.signed⟩] user type := by
  obtain ⟨openedKeyed,atRight,normalRight,elsewhere,same⟩ := opening_moves keyed normal opening atEntry
  have applied : applyWrites table (opened ++ [saveCashbox left a',saveCashbox entry.key b']) =
      applyWrites (applyWrites table opened) [saveCashbox left a',saveCashbox entry.key b'] := by simp [applyWrites]
  rw [applied,pair_moves openedKeyed apart ((elsewhere left apart).trans atLeft) atRight (normal _ _ atLeft) normalRight bookedLeft
    bookedRight,same]

theorem transfer_rows {table : Table Row} (keyed : table.Keyed) (normal : Normal table) (opening : Opening entry b opened)
    (apart : left ≠ entry.key) (atLeft : table.row left = some (.cashbox a)) (atEntry : table.row entry.key = entry.row) :
    (applyWrites table (opened ++ [saveCashbox left a',saveCashbox entry.key b'])).row entry.key = some (.cashbox b') ∧
    ∀ key,key ≠ left → key ≠ entry.key →
      (applyWrites table (opened ++ [saveCashbox left a',saveCashbox entry.key b'])).row key = table.row key := by
  obtain ⟨-,atRight,-,elsewhere,-⟩ := opening_moves keyed normal opening atEntry
  have rows : ∀ key,(applyWrites table (opened ++ [saveCashbox left a',saveCashbox entry.key b'])).row key =
      if key = left then some (.cashbox a') else if key = entry.key then some (.cashbox b') else (applyWrites table opened).row key := by
    intro key
    rw [applyWrites_row,written_append,←applyWrites_row opened,pair_written apart]
    · rintro rfl
      exact (elsewhere _ apart).trans atLeft
    · rintro rfl
      exact atRight
  constructor
  · rw [rows,if_neg (Ne.symm apart),if_pos rfl]
  · intro key notLeft notRight
    rw [rows,if_neg notLeft,if_neg notRight,elsewhere key notRight]

theorem createCashbox_safe (opensEmpty : dto.entity = openedCashbox dto.userId dto.cashboxType) :
    Safe RowLedger AnyCommit AnyReply (createCashbox dto) [] notes := by
  intro table _ _
  dsimp only
  split
  · trivial
  · intro key _
    refine ⟨?_,by simp,?_,trivial,trivial⟩
    · intro key' value member
      obtain ⟨rfl,-⟩ : key' = key ∧ value = .cashbox dto.entity := by simpa using member
      exact ⟨_,List.mem_cons_self,rfl⟩
    · intro key' row rows fits agrees
      have opening : Opening ⟨key,none,[]⟩ dto.entity [.insert key (.cashbox dto.entity)] :=
        .inr ⟨rfl,rfl,by rw [opensEmpty]; exact opened_ledger _ _,rfl⟩
      simpa using (opening_parts fits opening (agrees _ List.mem_cons_self)).1

-- What a committed update_balance did: one booked row under a new key, or nothing for a known key.
def Posts (sent : UpdateCashboxBalanceDto → Prop) : Guarantee Row CashboxHistory Movement := fun held made note writes entries =>
  made = [] ∧ match note with
  | .balance dto => sent dto ∧ ∃ id cashbox rows now saved row,held = [⟨id,some (.cashbox cashbox),rows⟩] ∧ dto.Addresses id cashbox ∧
      dto.existing rows = none ∧ book now (cashbox.cashboxType == .branch) dto.leg cashbox = .ok (saved,row) ∧
      writes = [saveCashbox id saved] ∧ entries = [(id,row)]
  | .balanceReplay dto => sent dto ∧ ∃ id cashbox rows,held = [⟨id,some (.cashbox cashbox),rows⟩] ∧ dto.Addresses id cashbox ∧
      (dto.existing rows).isSome ∧ writes = [] ∧ entries = []
  | _ => False
-- A request that fails has committed nothing; one that succeeds has committed once.
def Replies (dto : UpdateCashboxBalanceDto) : Reply Movement (Except RpcError Answer) := fun made reply => match reply with
  | .error error => made = [] ∧ (dto.amount ≤ 0 ∨ dto.selector = .error error ∨ error = notFound "Cashbox not found" ∨
      ∃ id cashbox,dto.Addresses id cashbox ∧ cashbox.cashboxType = .main)
  | .ok done => made = [.balance dto] ∧ done.idempotent = false ∨ made = [.balanceReplay dto] ∧ done.idempotent = true

theorem book_allowed (now : Nat) (leg : Leg) (free : cashbox.cashboxType ≠ .main) :
    ∃ saved row,book now (cashbox.cashboxType == .branch) leg cashbox = .ok (saved,row) := by
  unfold book updateBalancesByMethod
  cases type : cashbox.cashboxType with
  | main => exact absurd type free
  | forCourier => by_cases cash : leg.paymentMethod = .cash <;> simp [cash,Except.map]
  | forMarket => by_cases cash : leg.paymentMethod = .cash <;> simp [cash,Except.map]
  | branch => by_cases cash : leg.paymentMethod = .cash <;> simp [cash,Except.map]

theorem updateBalance_safe (now : Nat) (dto : UpdateCashboxBalanceDto) (isSent : sent dto) :
    Safe RowLedger (Posts sent) (Replies dto) (updateBalance now dto) [] [] := by
  unfold updateBalance
  split
  · rename_i negative
    exact ⟨rfl,.inl negative⟩
  · split
    · rename_i refused
      exact ⟨rfl,.inr (.inl refused)⟩
    · rename_i sel chosen
      refine lockCashbox_safe ⟨rfl,.inr (.inr (.inl rfl))⟩ ?_
      intro id cashbox rows selected ledger _
      have addresses : dto.Addresses id cashbox := ⟨sel,chosen,selected⟩
      dsimp only
      split
      · rename_i known
        refine ⟨by simp,by simp,fun key row rows fits _ => by simpa using fits,?_,.inr ⟨rfl,rfl⟩⟩
        exact ⟨rfl,isSent,id,cashbox,rows,rfl,addresses,by rw [known]; rfl,rfl,rfl⟩
      · rename_i unknown
        split
        · rename_i refused
          refine ⟨rfl,.inr (.inr (.inr ⟨id,cashbox,addresses,?_⟩))⟩
          by_contra free
          obtain ⟨saved,row,booked⟩ := book_allowed now dto.leg free
          rw [booked] at refused
          cases refused
        · rename_i saved history booked
          refine ⟨by simp [saveCashbox],by simp,?_,?_,.inl ⟨rfl,rfl⟩⟩
          · intro key row rows fits agrees
            by_cases same : id = key
            · subst same
              obtain ⟨rfl,rfl⟩ := agrees _ List.mem_cons_self rfl
              have kept : Fits RowLedger id (some (.cashbox saved)) (rows ++ [history]) := book_ledger ledger booked
              simpa [written_cons,slice_cons] using kept
            · simpa [written_cons,slice_cons,same] using fits
          · exact ⟨rfl,isSent,id,cashbox,rows,now,saved,history,rfl,addresses,unknown,booked,rfl,rfl⟩

theorem replay_safe (held : List (Held Row CashboxHistory)) (replay : note.replays = true) :
    Safe RowLedger (Shifts moves) Applied (.commit note [] [] (answerReplay message)) held [] := by
  refine ⟨by simp,by simp,fun key row rows fits _ => by simpa using fits,⟨rfl,by simp [replay]⟩,?_⟩
  intro done same fresh
  cases same
  cases fresh
theorem fail_applied (error : RpcError) : Applied notes (.error error) := fun _ impossible => by cases impossible
theorem payment_applied (advance : SettlementAdvance) : Applied [.payment advance] reply := fun _ _ _ => ⟨_,rfl,rfl⟩

theorem paymentsFromCourier_safe (now : Nat) (toMainOrBranch : data.ToMainOrBranch) :
    Safe RowLedger (Shifts data.moves) Applied (paymentsFromCourier now data) [] [] := by
  unfold paymentsFromCourier
  split
  · exact fail_applied _
  split
  · exact fail_applied _
  refine lockCashbox_safe (fail_applied _) ?_
  intro courierKey courier courierRows isCourier _ _
  obtain ⟨courierUser,courierType⟩ := byUserType_owner isCourier
  dsimp only
  split
  · exact replay_safe _ rfl
  split
  · exact fail_applied _
  refine lockOrOpen_safe (fun _ _ => byUserType_owner) ?_ ?_
  · intro h member
    cases List.mem_singleton.mp member
    refine ⟨courier,rfl,?_⟩
    rw [courierType]
    rcases toMainOrBranch with main | branch
    · rw [main]; decide
    · rw [branch]; decide
  intro entry receiver opened opening receiverUser receiverType apart
  have courierApart : courierKey ≠ entry.key := apart _ List.mem_cons_self
  split
  · exact fail_applied _
  rename_i paid paidRow got gotRow booked
  obtain ⟨bookedPaid,bookedGot⟩ := bind_pair_parts booked
  obtain ⟨gotSame,gotOwner,-,gotNormal,-⟩ := updateBalancesByMethod_parts (book_parts bookedGot).1
  have gotType : got.cashboxType = data.receiverType := gotSame.trans receiverType
  have gotUser : got.userId = data.receiver := gotOwner.trans receiverUser
  split
  · rename_i marketId click named
    -- click to market: a third cashbox, and the receiver's row once more
    refine lockCashbox_safe (fail_applied _) ?_
    intro marketKey market marketRows isMarket _ agreesMarket
    obtain ⟨marketUser,marketType⟩ := byUserTypeEver_owner isMarket
    have marketApart : ∀ h ∈ [entry,⟨courierKey,some (.cashbox courier),courierRows⟩],h.key ≠ marketKey := by
      intro h member same
      obtain ⟨row,-⟩ := agreesMarket h member same
      rcases List.mem_cons.mp member with rfl | last
      · rcases opening with ⟨locked,-⟩ | ⟨none,-⟩
        · rw [locked] at row
          cases row
          rw [marketType] at receiverType
          rcases toMainOrBranch with main | branch
          · rw [main] at receiverType; cases receiverType
          · rw [branch] at receiverType; cases receiverType
        · rw [none] at row
          cases row
      · cases List.mem_singleton.mp last
        cases row
        rw [marketType] at courierType
        cases courierType
    have entryMarket := marketApart entry List.mem_cons_self
    have courierMarket := marketApart _ (List.mem_cons_of_mem _ List.mem_cons_self)
    dsimp only
    split
    · exact fail_applied _
    rename_i passed passedRow cleared clearedRow bookedAgain
    obtain ⟨bookedPassed,bookedCleared⟩ := bind_pair_parts bookedAgain
    refine ⟨?_,by simp,?_,⟨rfl,?_⟩,payment_applied _⟩
    · intro key value member
      have inOpened : .insert key value ∈ opened := by simpa [saveCashbox] using member
      exact ⟨entry,by simp,opening_inserts opening inOpened⟩
    · intro key row rows fits agrees _
      have atCourier : key = courierKey → row = some (.cashbox courier) :=
        fun same => (agrees ⟨courierKey,some (.cashbox courier),courierRows⟩ (by simp) same.symm).1.symm
      obtain ⟨fitsFirst,atReceiver,elsewhere⟩ :=
        transfer_fits fits opening courierApart (agrees entry (by simp)) atCourier bookedPaid bookedGot
      rw [written_append,slice_append,←List.append_assoc]
      refine pair_fits fitsFirst entryMarket atReceiver ?_ bookedPassed bookedCleared
      rintro rfl
      rw [elsewhere (Ne.symm courierMarket) (Ne.symm entryMarket)]
      exact (agrees _ List.mem_cons_self rfl).1.symm
    · intro table keyed normal sees user type
      have atCourier : table.row courierKey = some (.cashbox courier) := sees ⟨courierKey,some (.cashbox courier),courierRows⟩ (by simp)
      have first := transfer_moves keyed normal opening courierApart atCourier (sees entry (by simp)) bookedPaid bookedGot user type
      obtain ⟨atReceiver,elsewhere⟩ := transfer_rows keyed normal opening courierApart atCourier (sees entry (by simp))
      have atMarket := (elsewhere marketKey (Ne.symm courierMarket) (Ne.symm entryMarket)).trans
        (sees ⟨marketKey,some (.cashbox market),marketRows⟩ (by simp))
      have second := pair_moves (applyWrites_keyed _ keyed) entryMarket atReceiver atMarket gotNormal
        (normal _ _ (sees ⟨marketKey,some (.cashbox market),marketRows⟩ (by simp))) bookedPassed bookedCleared user type
      have applied : ∀ first second : List (Write Row),applyWrites table (first ++ second) = applyWrites (applyWrites table first) second := by
        simp [applyWrites]
      rw [applied,second,first,courierUser,courierType,receiverUser,receiverType,gotUser,gotType,marketUser,marketType]
      simp only [CourierPayment.moves,click,named,moved_append,keyedLeg_signed,plainLeg_signed,sign]
      simp only [Int.one_mul,Int.neg_mul]
      omega
  · refine ⟨?_,by simp,?_,⟨rfl,?_⟩,payment_applied _⟩
    · intro key value member
      have inOpened : .insert key value ∈ opened := by simpa [saveCashbox] using member
      exact ⟨entry,by simp,opening_inserts opening inOpened⟩
    · intro key row rows fits agrees _
      have atCourier : key = courierKey → row = some (.cashbox courier) :=
        fun same => (agrees ⟨courierKey,some (.cashbox courier),courierRows⟩ (by simp) same.symm).1.symm
      exact (transfer_fits fits opening courierApart (agrees entry (by simp)) atCourier bookedPaid bookedGot).1
    · intro table keyed normal sees user type
      have atCourier : table.row courierKey = some (.cashbox courier) := sees ⟨courierKey,some (.cashbox courier),courierRows⟩ (by simp)
      rw [transfer_moves keyed normal opening courierApart atCourier (sees entry (by simp)) bookedPaid bookedGot,courierUser,courierType,
        receiverUser,receiverType]
      have plain : data.moves = [⟨data.courierId,.forCourier,-data.amount⟩,⟨data.receiver,data.receiverType,data.amount⟩] := by
        unfold CourierPayment.moves
        split
        · rename_i notClick _ _ marketId click named
          exact absurd named (notClick marketId click)
        · rfl
      simp [plain,sign]

theorem paymentFromBranchToMain_safe (now : Nat) (data : BranchPayment) :
    Safe RowLedger (Shifts data.moves) Applied (paymentFromBranchToMain now data) [] [] := by
  unfold paymentFromBranchToMain
  split
  · exact fail_applied _
  refine lockCashbox_safe (fail_applied _) ?_
  intro branchKey branch branchRows isBranch _ _
  obtain ⟨branchUser,branchType⟩ := byUserTypeEver_owner isBranch
  dsimp only
  split
  · exact replay_safe _ rfl
  refine lockOrOpen_safe (fun _ _ => byUserTypeEver_owner) ?_ ?_
  · intro h member
    cases List.mem_singleton.mp member
    exact ⟨branch,rfl,by rw [branchType]; decide⟩
  intro entry main opened opening mainUser mainType apart
  have branchApart : branchKey ≠ entry.key := apart _ List.mem_cons_self
  split
  · exact fail_applied _
  rename_i paid paidRow got gotRow booked
  obtain ⟨bookedPaid,bookedGot⟩ := bind_pair_parts booked
  refine ⟨?_,by simp,?_,⟨rfl,?_⟩,payment_applied _⟩
  · intro key value member
    have inOpened : .insert key value ∈ opened := by simpa [saveCashbox] using member
    exact ⟨entry,by simp,opening_inserts opening inOpened⟩
  · intro key row rows fits agrees _
    have atBranch : key = branchKey → row = some (.cashbox branch) :=
      fun same => (agrees ⟨branchKey,some (.cashbox branch),branchRows⟩ (by simp) same.symm).1.symm
    exact (transfer_fits fits opening branchApart (agrees entry (by simp)) atBranch bookedPaid bookedGot).1
  · intro table keyed normal sees user type
    have atBranch : table.row branchKey = some (.cashbox branch) := sees ⟨branchKey,some (.cashbox branch),branchRows⟩ (by simp)
    rw [transfer_moves keyed normal opening branchApart atBranch (sees entry (by simp)) bookedPaid bookedGot,branchUser,branchType,
      mainUser,mainType]
    simp [BranchPayment.moves,sign]

theorem paymentsToMarket_safe (now : Nat) (data : MarketPayment) :
    Safe RowLedger (Shifts data.moves) Applied (paymentsToMarket now data) [] [] := by
  unfold paymentsToMarket
  split
  · exact fail_applied _
  refine lockCashbox_safe (fail_applied _) ?_
  intro mainKey main mainRows isMain _ _
  obtain ⟨mainUser,mainType⟩ := byUserTypeEver_owner isMain
  refine lockCashbox_safe (fail_applied _) ?_
  intro marketKey market marketRows isMarket _ agreesMarket
  obtain ⟨marketUser,marketType⟩ := byUserTypeEver_owner isMarket
  have apart : mainKey ≠ marketKey := by
    intro same
    obtain ⟨row,-⟩ := agreesMarket _ List.mem_cons_self same
    cases row
    cases mainType.symm.trans marketType
  dsimp only
  split
  · exact replay_safe _ rfl
  split
  · exact fail_applied _
  rename_i paid paidRow cleared clearedRow booked
  obtain ⟨bookedPaid,bookedCleared⟩ := bind_pair_parts booked
  refine ⟨by simp [saveCashbox],by simp,?_,⟨rfl,?_⟩,payment_applied _⟩
  · intro key row rows fits agrees _
    have atMain : key = mainKey → row = some (.cashbox main) :=
      fun same => (agrees ⟨mainKey,some (.cashbox main),mainRows⟩ (by simp) same.symm).1.symm
    have atMarket : key = marketKey → row = some (.cashbox market) :=
      fun same => (agrees ⟨marketKey,some (.cashbox market),marketRows⟩ (by simp) same.symm).1.symm
    exact pair_fits fits apart atMain atMarket bookedPaid bookedCleared
  · intro table keyed normal sees user type
    have atMain : table.row mainKey = some (.cashbox main) := sees ⟨mainKey,some (.cashbox main),mainRows⟩ (by simp)
    have atMarket : table.row marketKey = some (.cashbox market) := sees ⟨marketKey,some (.cashbox market),marketRows⟩ (by simp)
    rw [pair_moves keyed apart atMain atMarket (normal _ _ atMain) (normal _ _ atMarket) bookedPaid bookedCleared,mainUser,mainType,
      marketUser,marketType]
    simp [MarketPayment.moves,sign]

theorem createSalary_safe (dto : CreateSalaryDto) : Safe RowLedger AnyCommit AnyReply (createSalary dto) [] notes := by
  unfold createSalary
  split
  · trivial
  intro table _ _
  dsimp only
  split
  · trivial
  split
  · trivial
  intro key _
  refine ⟨?_,by simp,?_,trivial,trivial⟩
  · intro key' value member
    cases List.mem_singleton.mp member
    exact ⟨_,List.mem_cons_self,rfl⟩
  · intro key' row rows fits agrees _
    by_cases here : key = key'
    · obtain ⟨-,empty⟩ := agrees _ List.mem_cons_self here
      simp only [written_cons,written_nil,Write.key,Write.result,here,if_true,slice_nil,List.append_nil]
      exact empty.symm
    · simpa [written_cons,Write.key,here] using fits

theorem updateSalary_safe (dto : UpdateSalaryDto) : Safe RowLedger AnyCommit AnyReply (updateSalary dto) [] notes := by
  intro table _ _
  dsimp only
  split
  · split
    · trivial
    refine ⟨by simp [saveSalary],by simp,?_,trivial,trivial⟩
    intro key' row rows fits _ _
    -- the update touches a salary row only, whatever stands under the key by now
    rw [slice_nil,List.append_nil]
    simp only [written_cons,written_nil]
    split
    · cases row with
      | none => exact fits
      | some stored =>
        cases stored with
        | cashbox cashbox => exact fits
        | userSalary salary => exact fits
    · exact fits
  · trivial

theorem request_safe (call : Call) (permitted : call.Permitted) : Safe RowLedger AnyCommit AnyReply call.request [] [] := by
  have weakened : ∀ {G A} (request : Request),Safe RowLedger G A request [] [] → Safe RowLedger AnyCommit AnyReply request [] [] :=
    fun _ safe => safe_mono (fun _ _ _ _ _ _ => trivial) (fun _ _ _ => trivial) safe
  have updated : ∀ now dto,Safe RowLedger AnyCommit AnyReply (updateBalance now dto) [] [] := by
    intro now dto
    have posts : Safe RowLedger (Posts fun _ => True) (Replies dto) (updateBalance now dto) [] [] := updateBalance_safe now dto trivial
    exact weakened _ posts
  cases call with
  | createCashbox dto => exact createCashbox_safe permitted
  | updateBalance now dto => exact updated now dto
  | spendMoney now data => exact safe_reply _ (updated _ _)
  | fillTheCashbox now data => exact safe_reply _ (updated _ _)
  | paymentsFromCourier now data => exact weakened _ (paymentsFromCourier_safe now permitted)
  | paymentFromBranchToMain now data => exact weakened _ (paymentFromBranchToMain_safe now data)
  | paymentsToMarket now data => exact weakened _ (paymentsToMarket_safe now data)
  | createSalary dto => exact createSalary_safe dto
  | updateSalary dto => exact updateSalary_safe dto

-- The finance service from an empty schema, with any requests, in any interleaving.
def serve (calls : List Call) (turns : List Turn) : Machine Row CashboxHistory Movement (Except RpcError Answer) :=
  (Machine.start [] [] 1 (calls.map Call.request)).run turns

theorem serve_sound (permitted : ∀ call ∈ calls,call.Permitted) (turns : List Turn) :
    (serve calls turns).Sound RowLedger (fun _ => AnyCommit) fun _ => AnyReply := by
  refine run_sound (start_sound (by simp [Table.Keyed]) (by simp) (by simp) ?_ ?_) turns
  · intro key
    rfl
  intro who prog found
  rw [List.getElem?_map,Option.map_eq_some_iff] at found
  obtain ⟨call,here,rfl⟩ := found
  exact request_safe call (permitted call (List.mem_of_getElem? here))

-- A courier collects 500 and pays 300 by click through MAIN to the market.
def clickCalls : List Call := [
  .createCashbox ⟨7,.forCourier,none,none,none⟩,.createCashbox ⟨9,.forMarket,none,none,none⟩,
  .updateBalance 10 ⟨none,some 7,some .forCourier,50000,.income,.sell,none,some 1,some "req:a",none⟩,
  .paymentsFromCourier 20 ⟨7,30000,some .clickToMarket,some 9,none,none,none,some "t1"⟩]
def clickTurns : List Turn := (List.range 4).flatMap fun who => List.replicate 5 (.step who 0)

end Elchi.Finance
