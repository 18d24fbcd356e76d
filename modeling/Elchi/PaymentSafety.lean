import Mathlib.Logic.Relation
import Elchi.CashboxLedger
namespace Elchi.Finance
open RowLock

def Call.pays : Call → Bool
  | .spendMoney _ _ => true
  | .paymentsFromCourier _ _ => true
  | .paymentFromBranchToMain _ _ => true
  | .paymentsToMarket _ _ => true
  | _ => false
def Movement.remits : Movement → Bool
  | .payment advance => advance.level == .courierToBranch
  | _ => false

def Cashbox.Solvent (box : Cashbox) : Prop := 0 ≤ box.balanceCash ∧ 0 ≤ box.balanceCard
-- The stored total of a courier's cashbox is no more than its cash and card hold.
def Cashbox.Backed (box : Cashbox) : Prop := box.cashboxType = .forCourier → 0 ≤ box.balance → box.balance ≤ box.balanceCash + box.balanceCard
def AllCashboxes (P : Cashbox → Prop) (table : Table Row) : Prop := ∀ key box,table.row key = some (.cashbox box) → P box
def MainSolvent : Table Row → Prop := AllCashboxes fun box => box.cashboxType = .main → box.Solvent
def CouriersBacked : Table Row → Prop := AllCashboxes Cashbox.Backed

-- One movement on a cashbox; only a branch may be taken below zero by way of the override.
def Booking (box saved : Cashbox) : Prop := ∃ amount operation method override,
  (override = true → box.cashboxType = .branch) ∧ updateBalancesByMethod box amount operation method override = .ok saved
abbrev Bookings := Relation.ReflTransGen Booking
-- What a transaction makes of a cashbox: movements, and a courier's remittance leaves no courier owing.
def CourierKept (box saved : Cashbox) : Prop := box.cashboxType = .forCourier → 0 ≤ box.balance → box.Backed → 0 ≤ saved.balance
def Fair (remits : Bool) (box saved : Cashbox) : Prop := Bookings box saved ∧ (remits = true → CourierKept box saved)

theorem booked {leg : Leg} (free : override = true → box.cashboxType = .branch) (done : book now override leg box = .ok (saved,row)) :
    Booking box saved := ⟨leg.amount,leg.operationType,leg.paymentMethod,override,free,(book_parts done).1⟩
theorem strictly {P : Prop} : false = true → P := nofun

theorem booking_solvent (booking : Booking box saved) (main : box.cashboxType = .main) (solvent : box.Solvent) :
    saved.cashboxType = .main ∧ saved.Solvent := by
  obtain ⟨amount,operation,method,override,free,updated⟩ := booking
  have strict : override = false := by
    cases override with
    | false => rfl
    | true =>
      rw [free rfl] at main
      cases main
  unfold updateBalancesByMethod at updated
  simp only [main,strict] at updated
  split at updated
  · split at updated
    · cases updated
    · rename_i enough
      cases updated
      simp at enough
      exact ⟨rfl,enough,solvent.2⟩
  · split at updated
    · cases updated
    · rename_i enough
      cases updated
      simp at enough
      exact ⟨rfl,solvent.1,enough⟩

theorem booking_normal (booking : Booking box saved) :
    saved.cashboxType = box.cashboxType ∧ saved.balance = saved.balanceCash + saved.balanceCard := by
  obtain ⟨amount,operation,method,override,-,updated⟩ := booking
  obtain ⟨type,-,-,normal,-⟩ := updateBalancesByMethod_parts updated
  exact ⟨type,normal⟩

theorem bookings_solvent (bookings : Bookings box saved) (solvent : box.cashboxType = .main → box.Solvent) :
    saved.cashboxType = .main → saved.Solvent := by
  induction bookings with
  | refl => exact solvent
  | tail _ booking ih =>
    intro main
    have before := (booking_normal booking).1.symm.trans main
    exact (booking_solvent booking before (ih before)).2

theorem bookings_backed (bookings : Bookings box saved) (backed : box.Backed) : saved.Backed := by
  cases bookings with
  | refl => exact backed
  | tail _ booking => exact fun _ _ => Int.le_of_eq (booking_normal booking).2

-- The cashbox a saved one was made of: the stored row, or one opened in the same transaction.
def Starts (row : Option Row) (box : Cashbox) : Prop :=
  row = some (.cashbox box) ∨ row = none ∧ ∃ userId type,box = openedCashbox userId type
def Posted (remits : Bool) (row after : Option Row) : Prop :=
  after = row ∨ ∃ box saved,Starts row box ∧ after = some (.cashbox saved) ∧ Fair remits box saved
def Saved (held : List (Held Row CashboxHistory)) (remits : Bool) (save : Nat × Cashbox) : Prop :=
  ∃ h ∈ held,h.key = save.1 ∧ ∃ box,Starts h.row box ∧ Fair remits box save.2

theorem fair_refl (remits : Bool) (box : Cashbox) : Fair remits box box := ⟨.refl,fun _ _ nonneg _ => nonneg⟩

def saveAll (saves : List (Nat × Cashbox)) : List (Write Row) := saves.map fun save => saveCashbox save.1 save.2
theorem saveAll_cons (save : Nat × Cashbox) (rest : List (Nat × Cashbox)) (key : Nat) (row : Option Row) :
    written (saveAll (save :: rest)) key row =
      written (saveAll rest) key (if save.1 = key then (saveCashbox save.1 save.2).result row else row) := rfl

-- At one key the last save wins; a save does nothing where no cashbox stands.
theorem saved_last (saves : List (Nat × Cashbox)) (key : Nat) (box : Cashbox) :
    written (saveAll saves) key (some (.cashbox box)) = some (.cashbox box) ∨
    ∃ save ∈ saves,save.1 = key ∧ written (saveAll saves) key (some (.cashbox box)) = some (.cashbox save.2) := by
  induction saves generalizing box with
  | nil => exact .inl rfl
  | cons save rest ih =>
    rw [saveAll_cons]
    by_cases here : save.1 = key
    · rw [if_pos here,saveCashbox_result]
      rcases ih save.2 with same | ⟨other,member,at_key,last⟩
      · exact .inr ⟨save,List.mem_cons_self,here,same⟩
      · exact .inr ⟨other,List.mem_cons_of_mem _ member,at_key,last⟩
    · rw [if_neg here]
      rcases ih box with same | ⟨other,member,at_key,last⟩
      · exact .inl same
      · exact .inr ⟨other,List.mem_cons_of_mem _ member,at_key,last⟩
theorem saved_nowhere (saves : List (Nat × Cashbox)) (key : Nat) {row : Option Row} (none : ∀ box,row ≠ some (.cashbox box)) :
    written (saveAll saves) key row = row := by
  induction saves with
  | nil => rfl
  | cons save rest ih =>
    rw [saveAll_cons]
    split
    · have unchanged : (saveCashbox save.1 save.2).result row = row := by
        cases row with
        | none => rfl
        | some stored => cases stored with
          | cashbox box => exact absurd rfl (none box)
          | userSalary salary => rfl
      rw [unchanged]
      exact ih
    · exact ih

def Opens (held : List (Held Row CashboxHistory)) (opened : List (Write Row)) : Prop :=
  opened = [] ∨ ∃ h ∈ held,h.row = none ∧ ∃ userId type,opened = [.insert h.key (.cashbox (openedCashbox userId type))]

-- A transaction of this shape, seen at one key.
theorem saves_posted {held : List (Held Row CashboxHistory)} {opened : List (Write Row)} {saves : List (Nat × Cashbox)} {row : Option Row}
    (opens : Opens held opened) (saved : ∀ save ∈ saves,Saved held remits save) (agrees : ∀ h ∈ held,h.key = key → h.row = row) :
    Posted remits row (written (opened ++ saveAll saves) key row) := by
  have settle : ∀ box,Starts row box → Posted remits row (written (saveAll saves) key (some (.cashbox box))) := by
    intro box starts
    rcases saved_last saves key box with same | ⟨save,member,here,last⟩
    · exact .inr ⟨box,box,starts,same,fair_refl remits box⟩
    · obtain ⟨h,inHeld,sameKey,first,source,fair⟩ := saved save member
      rw [agrees h inHeld (sameKey.trans here)] at source
      exact .inr ⟨first,save.2,source,last,fair⟩
  have unopened : Posted remits row (written (saveAll saves) key row) := by
    cases row with
    | none => exact .inl (saved_nowhere saves key (fun _ impossible => by cases impossible))
    | some stored => cases stored with
      | cashbox box => exact settle box (.inl rfl)
      | userSalary salary => exact .inl (saved_nowhere saves key (fun _ impossible => by cases impossible))
  rw [written_append]
  rcases opens with rfl | ⟨h,inHeld,absent,userId,type,rfl⟩
  · exact unopened
  · rw [written_cons,written_nil,Write.key]
    by_cases here : h.key = key
    · rw [if_pos here]
      exact settle _ (.inr ⟨(agrees h inHeld here).symm.trans absent,userId,type,rfl⟩)
    · rw [if_neg here]
      exact unopened

-- The settlement advance a payment enqueues.
def Call.advance : Call → Option SettlementAdvance
  | .paymentsFromCourier _ data => some data.advance
  | .paymentFromBranchToMain _ data =>
    some (settlementAdvance .branchToHq data.branchId data.amount data.createdBy (dedupKey data.dedupEpoch))
  | .paymentsToMarket _ data =>
    some (settlementAdvance .hqToMarket data.marketId data.amount data.createdBy (dedupKey data.dedupEpoch))
  | _ => none
-- What a committed payment has done, and that a request commits at most once and fails without.
def PostsFairly (call : Call) : Guarantee Row CashboxHistory Movement := fun held made note writes _ =>
  made = [] ∧ (∀ advance,note = .payment advance → call.advance = some advance) ∧
  ∀ key row,(∀ h ∈ held,h.key = key → h.row = row) → Posted note.remits row (written writes key row)
def Whole : Reply Movement (Except RpcError Answer) := fun made reply => match reply with
  | .error _ => made = []
  | .ok _ => ∃ note,made = [note]

theorem own_advance {call : Call} {paid : SettlementAdvance} (same : call.advance = some paid) :
    ∀ advance,Movement.payment paid = .payment advance → call.advance = some advance := by
  intro advance equal
  cases equal
  exact same

theorem saveAll_updates (saves : List (Nat × Cashbox)) (key : Nat) (row : Row) : .insert key row ∉ saveAll saves := by
  simp [saveAll,saveCashbox]

theorem transfer_safe {held : List (Held Row CashboxHistory)} {opened : List (Write Row)} {saves : List (Nat × Cashbox)}
    {entries : Journal CashboxHistory} {note : Movement} (own : ∀ advance,note = .payment advance → Call.advance call = some advance)
    (opens : Opens held opened) (saved : ∀ save ∈ saves,Saved held note.remits save)
    (covered : ∀ entry ∈ entries,∃ save ∈ saves,save.1 = entry.1) :
    Safe Anything (PostsFairly call) Whole (.commit note (opened ++ saveAll saves) entries (answer code text)) held [] := by
  apply commit_anything
  · intro key value member
    rcases List.mem_append.mp member with new | old
    · rcases opens with rfl | ⟨h,inHeld,-,userId,type,rfl⟩
      · cases new
      · cases List.mem_singleton.mp new
        exact ⟨h,inHeld,rfl⟩
    · exact absurd old (saveAll_updates saves key value)
  · intro entry member
    obtain ⟨save,inSaves,same⟩ := covered entry member
    exact ⟨saveCashbox save.1 save.2,List.mem_append_right _ (List.mem_map_of_mem inSaves),same⟩
  · exact ⟨rfl,own,fun key row agrees => saves_posted opens saved agrees⟩
  · exact ⟨note,rfl⟩

theorem replay_whole (held : List (Held Row CashboxHistory)) {note : Movement} (replay : note.replays = true) (text : String) :
    Safe Anything (PostsFairly call) Whole (.commit note [] [] (answerReplay text)) held [] := by
  apply commit_anything
  · intro key value member
    cases member
  · intro entry member
    cases member
  · refine ⟨rfl,?_,fun key row _ => .inl rfl⟩
    intro advance paid
    rw [paid] at replay
    cases replay
  · exact ⟨note,rfl⟩

theorem book_balance (done : book now override leg box = .ok (saved,row)) :
    saved.cashboxType = box.cashboxType ∧ saved.balance = saved.balanceCash + saved.balanceCard ∧
    saved.balanceCash + saved.balanceCard = box.balanceCash + box.balanceCard + sign leg.operationType * leg.amount := by
  obtain ⟨type,-,-,normal,moved⟩ := updateBalancesByMethod_parts (book_parts done).1
  exact ⟨type,normal,moved⟩

theorem fair_booked {leg : Leg} (free : override = true → box.cashboxType = .branch) (done : book now override leg box = .ok (saved,row)) :
    Fair false box saved := ⟨.single (booked free done),strictly⟩
theorem fair_market {leg : Leg} (market : box.cashboxType ≠ .forCourier) (done : book now false leg box = .ok (saved,row)) : Fair remits box saved :=
  ⟨.single (booked strictly done),fun _ courier => absurd courier market⟩
-- The remittance itself: the guard keeps the amount within the stored total.
theorem fair_paid {leg : Leg} (expense : leg.operationType = .expense) (within : leg.amount ≤ box.balance)
    (done : book now false leg box = .ok (saved,row)) : Fair true box saved := by
  refine ⟨.single (booked strictly done),fun _ courier nonneg backed => ?_⟩
  obtain ⟨-,normal,moved⟩ := book_balance done
  have enough := backed courier nonneg
  rw [expense,sign] at moved
  omega
theorem fair_got {leg : Leg} (income : leg.operationType = .income) (positive : 0 < leg.amount)
    (done : book now false leg box = .ok (saved,row)) : Fair true box saved := by
  refine ⟨.single (booked strictly done),fun _ courier nonneg backed => ?_⟩
  obtain ⟨-,normal,moved⟩ := book_balance done
  have enough := backed courier nonneg
  rw [income,sign] at moved
  omega
-- Passing on what was just received brings the cashbox back to where it was.
theorem fair_passed {first second : Leg} (got : book now false first box = .ok (middle,rowGot))
    (passed : book now false second middle = .ok (saved,rowPassed)) (income : first.operationType = .income)
    (expense : second.operationType = .expense) (same : first.amount = second.amount) : Fair true box saved := by
  refine ⟨.tail (.single (booked strictly got)) (booked strictly passed),fun _ courier nonneg backed => ?_⟩
  obtain ⟨-,-,movedIn⟩ := book_balance got
  obtain ⟨-,normal,movedOut⟩ := book_balance passed
  have enough := backed courier nonneg
  rw [income,sign] at movedIn
  rw [expense,sign] at movedOut
  omega

theorem opens_more {held : List (Held Row CashboxHistory)} {opened : List (Write Row)} (opens : Opens held opened)
    (h : Held Row CashboxHistory) : Opens (h :: held) opened := by
  rcases opens with rfl | ⟨own,member,rest⟩
  · exact .inl rfl
  · exact .inr ⟨own,List.mem_cons_of_mem _ member,rest⟩
theorem saved_locked {held : List (Held Row CashboxHistory)} (member : ⟨key,some (.cashbox box),rows⟩ ∈ held) (fair : Fair remits box saved) :
    Saved held remits (key,saved) := ⟨_,member,rfl,box,.inl rfl,fair⟩

theorem lockOrOpen_any {held : List (Held Row CashboxHistory)}
    (continues : ∀ entry box opened,Starts entry.row box → Opens (entry :: held) opened →
      Safe Anything G A (next entry.key box opened) (entry :: held) notes) :
    Safe Anything G A (lockOrOpen sel userId type next) held notes := by
  refine lockCashbox_safe ?_ ?_
  · intro key _
    exact continues ⟨key,none,[]⟩ _ _ (.inr ⟨rfl,userId,type,rfl⟩)
      (.inr ⟨⟨key,none,[]⟩,List.mem_cons_self,rfl,userId,type,rfl⟩)
  · intro key box rows _ _ _
    exact continues ⟨key,some (.cashbox box),rows⟩ box [] (.inl rfl) (.inl rfl)

theorem updateBalance_whole (now : Nat) (dto : UpdateCashboxBalanceDto) : Safe Anything (PostsFairly call) Whole (updateBalance now dto) [] [] := by
  unfold updateBalance
  split
  · rfl
  split
  · rfl
  refine lockCashbox_safe rfl ?_
  intro id box rows _ _ _
  dsimp only
  split
  · exact replay_whole _ rfl _
  split
  · rfl
  · rename_i saved history done
    have free : (box.cashboxType == .branch) = true → box.cashboxType = .branch := fun branch => eq_of_beq branch
    change Safe Anything (PostsFairly call) Whole (.commit _ ([] ++ saveAll [(id,saved)]) _ _) _ _
    refine transfer_safe (fun _ impossible => by cases impossible) (.inl rfl) ?_ ?_
    · intro save member
      cases List.mem_singleton.mp member
      exact saved_locked List.mem_cons_self (fair_booked free done)
    · intro entry member
      cases List.mem_singleton.mp member
      exact ⟨_,List.mem_cons_self,rfl⟩

theorem spendMoney_whole (now : Nat) (data : ManualDto) : Safe Anything (PostsFairly (.spendMoney now data)) Whole (spendMoney now data) [] [] := by
  apply safe_reply
  refine safe_mono (fun _ _ _ _ _ posted => posted) ?_ (updateBalance_whole now _)
  intro made reply whole
  cases reply with
  | error _ => exact whole
  | ok _ => exact whole

theorem paymentFromBranchToMain_whole (now : Nat) (data : BranchPayment) :
    Safe Anything (PostsFairly (.paymentFromBranchToMain now data)) Whole (paymentFromBranchToMain now data) [] [] := by
  unfold paymentFromBranchToMain
  split
  · rfl
  refine lockCashbox_safe rfl ?_
  intro branchKey branch rows _ _ _
  dsimp only
  split
  · exact replay_whole _ rfl _
  refine lockOrOpen_any ?_
  intro entry main opened starts opens
  split
  · rfl
  rename_i paid paidRow got gotRow done
  obtain ⟨bookedPaid,bookedGot⟩ := bind_pair_parts done
  change Safe Anything (PostsFairly (.paymentFromBranchToMain now data)) Whole (.commit _ (opened ++ saveAll [(branchKey,paid),(entry.key,got)]) _ _) _ _
  refine transfer_safe (own_advance rfl) opens ?_ (by simp)
  refine List.forall_mem_cons.mpr ⟨?_,List.forall_mem_singleton.mpr ?_⟩
  · exact saved_locked (List.mem_cons_of_mem _ List.mem_cons_self) (fair_booked strictly bookedPaid)
  · exact ⟨entry,List.mem_cons_self,rfl,main,starts,fair_booked strictly bookedGot⟩

theorem paymentsToMarket_whole (now : Nat) (data : MarketPayment) : Safe Anything (PostsFairly (.paymentsToMarket now data)) Whole (paymentsToMarket now data) [] [] := by
  unfold paymentsToMarket
  split
  · rfl
  refine lockCashbox_safe rfl ?_
  intro mainKey main rows _ _ _
  refine lockCashbox_safe rfl ?_
  intro marketKey market marketRows _ _ _
  dsimp only
  split
  · exact replay_whole _ rfl _
  split
  · rfl
  rename_i paid paidRow cleared clearedRow done
  obtain ⟨bookedPaid,bookedCleared⟩ := bind_pair_parts done
  change Safe Anything (PostsFairly (.paymentsToMarket now data)) Whole (.commit _ ([] ++ saveAll [(mainKey,paid),(marketKey,cleared)]) _ _) _ _
  refine transfer_safe (own_advance rfl) (.inl rfl) ?_ (by simp)
  refine List.forall_mem_cons.mpr ⟨?_,List.forall_mem_singleton.mpr ?_⟩
  · exact saved_locked (List.mem_cons_of_mem _ List.mem_cons_self) (fair_booked strictly bookedPaid)
  · exact saved_locked List.mem_cons_self (fair_booked strictly bookedCleared)

theorem paymentsFromCourier_whole (now : Nat) (data : CourierPayment) :
    Safe Anything (PostsFairly (.paymentsFromCourier now data)) Whole (paymentsFromCourier now data) [] [] := by
  unfold paymentsFromCourier
  split
  · rfl
  rename_i positive
  split
  · rfl
  refine lockCashbox_safe rfl ?_
  intro courierKey courier rows _ _ _
  dsimp only
  split
  · exact replay_whole _ rfl _
  split
  · rfl
  rename_i within
  refine lockOrOpen_any ?_
  intro entry receiver opened starts opens
  split
  · rfl
  rename_i paid paidRow got gotRow done
  obtain ⟨bookedPaid,bookedGot⟩ := bind_pair_parts done
  have fairPaid : Fair true courier paid := fair_paid rfl (Int.not_lt.mp within) bookedPaid
  have fairGot : Fair true receiver got := fair_got rfl (Int.not_le.mp positive) bookedGot
  split
  · rename_i marketId _ _
    refine lockCashbox_safe rfl ?_
    intro marketKey market marketRows isMarket _ _
    dsimp only
    split
    · rfl
    rename_i passed passedRow cleared clearedRow chained
    obtain ⟨bookedPassed,bookedCleared⟩ := bind_pair_parts chained
    have notCourier : market.cashboxType ≠ .forCourier := by
      rw [(byUserTypeEver_owner isMarket).2]
      decide
    rw [List.append_assoc]
    change Safe Anything (PostsFairly (.paymentsFromCourier now data)) Whole
      (.commit _ (opened ++ saveAll [(courierKey,paid),(entry.key,got),(entry.key,passed),(marketKey,cleared)]) _ _) _ _
    have fairPassed : Fair true receiver passed := fair_passed bookedGot bookedPassed rfl rfl rfl
    have own : entry ∈ [⟨marketKey,some (.cashbox market),marketRows⟩,entry,⟨courierKey,some (.cashbox courier),rows⟩] :=
      List.mem_cons_of_mem _ List.mem_cons_self
    refine transfer_safe (own_advance rfl) (opens_more opens _) ?_ (by simp)
    refine List.forall_mem_cons.mpr ⟨?_,List.forall_mem_cons.mpr ⟨?_,List.forall_mem_cons.mpr ⟨?_,List.forall_mem_singleton.mpr ?_⟩⟩⟩
    · exact saved_locked (List.mem_cons_of_mem _ (List.mem_cons_of_mem _ List.mem_cons_self)) fairPaid
    · exact ⟨entry,own,rfl,receiver,starts,fairGot⟩
    · exact ⟨entry,own,rfl,receiver,starts,fairPassed⟩
    · exact saved_locked List.mem_cons_self (fair_market notCourier bookedCleared)
  · change Safe Anything (PostsFairly (.paymentsFromCourier now data)) Whole (.commit _ (opened ++ saveAll [(courierKey,paid),(entry.key,got)]) _ _) _ _
    refine transfer_safe (own_advance rfl) opens ?_ (by simp)
    refine List.forall_mem_cons.mpr ⟨?_,List.forall_mem_singleton.mpr ?_⟩
    · exact saved_locked (List.mem_cons_of_mem _ List.mem_cons_self) fairPaid
    · exact ⟨entry,List.mem_cons_self,rfl,receiver,starts,fairGot⟩

theorem pays_whole (call : Call) (pays : call.pays = true) : Safe Anything (PostsFairly call) Whole call.request [] [] := by
  cases call with
  | spendMoney now data => exact spendMoney_whole now data
  | paymentsFromCourier now data => exact paymentsFromCourier_whole now data
  | paymentFromBranchToMain now data => exact paymentFromBranchToMain_whole now data
  | paymentsToMarket now data => exact paymentsToMarket_whole now data
  | _ => cases pays

-- Any cashboxes with their history: what the keys of the schema guarantee, and nothing of the balances.
structure Schema where
  table : Table Row
  journal : Journal CashboxHistory
  nextId : Nat
  keyed : table.Keyed
  below : ∀ key ∈ table.map (·.1),key < nextId
  refers : ∀ entry ∈ journal,entry.1 ∈ table.map (·.1)

abbrev PaymentRun := Machine Row CashboxHistory Movement (Except RpcError Answer)
def Schema.pay (schema : Schema) (calls : List Call) (turns : List Turn) : PaymentRun :=
  (Machine.start schema.table schema.journal schema.nextId (calls.map Call.request)).run turns

def Pays (calls : List Call) (who : Nat) : Guarantee Row CashboxHistory Movement := fun held made note writes entries =>
  ∃ call,calls[who]? = some call ∧ PostsFairly call held made note writes entries

theorem pay_sound (schema : Schema) (pays : ∀ call ∈ calls,call.pays = true) (turns : List Turn) :
    (schema.pay calls turns).Sound Anything (Pays calls) fun _ => Whole := by
  apply run_sound
  apply start_sound schema.keyed schema.below
  · intro entry member
    exact schema.below _ (schema.refers entry member)
  · intro key
    cases stored : schema.table.row key with
    | some row => trivial
    | none =>
      apply slice_absent
      intro entry member same
      exact row_none.mp stored (same ▸ schema.refers entry member)
  · intro who prog found
    rw [List.getElem?_map,Option.map_eq_some_iff] at found
    obtain ⟨call,here,rfl⟩ := found
    exact safe_mono (fun _ _ _ _ _ posted => ⟨call,here,posted⟩) (fun _ _ whole => whole) (pays_whole call (pays call (List.mem_of_getElem? here)))

-- One commit, seen at one key of the tables around it.
theorem posted_between {m : PaymentRun} (sound : m.Sound Anything (Pays calls) A) {commit : Commit Row CashboxHistory Movement}
    (member : commit ∈ m.log) (key : Nat) : Posted commit.note.remits (commit.before.row key) (commit.after.row key) := by
  obtain ⟨⟨made,call,-,-,-,posted⟩,sees⟩ := sound.logged commit member
  rw [Commit.after,applyWrites_row]
  apply posted
  intro h inHeld same
  rw [←same,sees h inHeld]

theorem posted_keeps {P : Cashbox → Prop} {before after : Table Row} (posted : ∀ key,Posted remits (before.row key) (after.row key))
    (opened : ∀ userId type,P (openedCashbox userId type)) (kept : ∀ box saved,Bookings box saved → P box → P saved)
    (all : AllCashboxes P before) : AllCashboxes P after := by
  intro key box stored
  rcases posted key with same | ⟨first,saved,starts,now,fair⟩
  · exact all key box (same ▸ stored)
  · rw [stored] at now
    cases now
    apply kept first box fair.1
    rcases starts with here | ⟨-,userId,type,rfl⟩
    · exact all key first here
    · exact opened userId type

theorem solvent_step {before after : Table Row} (posted : ∀ key,Posted remits (before.row key) (after.row key))
    (solvent : MainSolvent before) : MainSolvent after :=
  posted_keeps posted (fun _ _ _ => ⟨Int.le_refl 0,Int.le_refl 0⟩) (fun _ _ bookings => bookings_solvent bookings) solvent
theorem backed_step {before after : Table Row} (posted : ∀ key,Posted remits (before.row key) (after.row key))
    (backed : CouriersBacked before) : CouriersBacked after :=
  posted_keeps posted (fun _ _ _ _ => Int.le_refl 0) (fun _ _ bookings => bookings_backed bookings) backed

theorem notes_length (m : PaymentRun) (who : Nat) : (m.notes who).length = (m.log.filter fun commit => commit.who == who).length := by
  unfold Machine.notes
  induction m.log with
  | nil => rfl
  | cons commit rest ih =>
    by_cases own : commit.who = who
    · simp [own,ih]
    · simp [own,ih]

-- A courier with 500 remits 300 into a main cashbox that is opened for it; HQ then pays a market
-- more than it has, and spends 100.
def courierAndMarket : Schema where
  table := [(1,.cashbox ⟨50000,50000,0,.forCourier,7,false⟩),(2,.cashbox ⟨90000,90000,0,.forMarket,9,false⟩)]
  journal := []
  nextId := 3
  keyed := by decide
  below := by decide
  refers := by simp
def remitAndSpend : List Call := [
  .paymentsFromCourier 10 ⟨7,30000,none,none,none,none,none,some "a"⟩,.paymentsToMarket 20 ⟨9,50000,none,none,some "b"⟩,
  .spendMoney 30 ⟨0,10000,none,none,some "c"⟩]
def inOrder (calls : Nat) : List Turn := (List.range calls).flatMap fun who => List.replicate 5 (.step who 0)

-- A courier's cashbox opened with a total of 100 and neither cash nor card: the guard lets 100 go.
def unbackedCalls : List Call := [
  .createCashbox ⟨7,.forCourier,some 10000,none,none⟩,.paymentsFromCourier 10 ⟨7,10000,none,none,none,none,none,some "a"⟩]
end Elchi.Finance
