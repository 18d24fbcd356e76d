import Elchi.LockedRuns
import Elchi.Payments
namespace Elchi.Finance
open RowLock

theorem updateBalancesByMethod_parts (updated : updateBalancesByMethod cashbox amount operation method override = .ok saved) :
    saved.cashboxType = cashbox.cashboxType ∧ saved.userId = cashbox.userId ∧ saved.isDeleted = cashbox.isDeleted ∧
    saved.balance = saved.balanceCash + saved.balanceCard ∧
    saved.balanceCash + saved.balanceCard = cashbox.balanceCash + cashbox.balanceCard + sign operation * amount := by
  unfold updateBalancesByMethod at updated
  dsimp only at updated
  split at updated
  · split at updated
    · cases updated
    · cases updated
      refine ⟨rfl,rfl,rfl,rfl,?_⟩
      simp only [normalizeBalance]
      omega
  · split at updated
    · cases updated
    · cases updated
      refine ⟨rfl,rfl,rfl,rfl,?_⟩
      simp only [normalizeBalance]
      omega

theorem book_parts (booked : book now override leg cashbox = .ok (saved,row)) :
    updateBalancesByMethod cashbox leg.amount leg.operationType leg.paymentMethod override = .ok saved ∧
    row.toLeg = leg ∧ row.createdAt = now ∧ row.balanceAfter = saved.balance ∧
    row.balanceCashAfter = saved.balanceCash ∧ row.balanceCardAfter = saved.balanceCard := by
  unfold book at booked
  cases updated : updateBalancesByMethod cashbox leg.amount leg.operationType leg.paymentMethod override with
  | error error => simp [updated,Except.map] at booked
  | ok result =>
    simp only [updated,Except.map,Except.ok.injEq,Prod.mk.injEq] at booked
    obtain ⟨rfl,rfl⟩ := booked
    exact ⟨rfl,rfl,rfl,rfl,rfl,rfl⟩

theorem bind_pair_parts {α β : Type} {x : Except RpcError α} {y : Except RpcError β} {a : α} {b : β}
    (result : (do let p ← x; let q ← y; return (p,q)) = Except.ok (a,b)) : x = .ok a ∧ y = .ok b := by
  obtain ⟨p,first,rest⟩ := error_bind_parts result
  obtain ⟨q,second,last⟩ := error_bind_parts rest
  cases last
  exact ⟨first,second⟩

@[simp] theorem saveCashbox_key (key : Nat) (cashbox : Cashbox) : (saveCashbox key cashbox).key = key := rfl
@[simp] theorem saveCashbox_result (key : Nat) (old saved : Cashbox) :
    (saveCashbox key saved).result (some (.cashbox old)) = some (.cashbox saved) := rfl

theorem byUserType_owner (selected : byUserType userId type key cashbox = true) :
    cashbox.userId = userId ∧ cashbox.cashboxType = type := by
  simp only [byUserType,Bool.and_eq_true,beq_iff_eq] at selected
  exact selected.1
theorem byUserTypeEver_owner (selected : byUserTypeEver userId type key cashbox = true) :
    cashbox.userId = userId ∧ cashbox.cashboxType = type := by
  simp only [byUserTypeEver,Bool.and_eq_true,beq_iff_eq] at selected
  exact selected

-- What the cashboxes of one user and type hold together: with one such cashbox, its balance.
def Row.holds (user : Nat) (type : CashboxType) : Row → Int
  | .cashbox box => if box.userId = user ∧ box.cashboxType = type then box.balance else 0
  | .userSalary _ => 0
def balanceOf (table : Table Row) (user : Nat) (type : CashboxType) : Int :=
  (table.map fun entry => entry.2.holds user type).sum

theorem balanceOf_put {table : Table Row} (keyed : table.Keyed) (key : Nat) (value : Row) (user : Nat) (type : CashboxType) :
    balanceOf (table.put key value) user type + (table.row key).elim 0 (Row.holds user type) =
      balanceOf table user type + value.holds user type :=
  weigh_put keyed (Row.holds user type) key value

-- A signed movement on the cashbox of a user.
structure Move where
  userId : Nat
  cashboxType : CashboxType
  signed : Int
deriving DecidableEq, Repr

def Move.on (move : Move) (user : Nat) (type : CashboxType) : Int :=
  if move.userId = user ∧ move.cashboxType = type then move.signed else 0
def moved (moves : List Move) (user : Nat) (type : CashboxType) : Int := (moves.map fun move => move.on user type).sum

def Normal (table : Table Row) : Prop :=
  ∀ key cashbox,table.row key = some (.cashbox cashbox) → cashbox.balance = cashbox.balanceCash + cashbox.balanceCard

-- Saving a booked cashbox moves what its owner holds by the leg.
theorem save_moves {table : Table Row} (keyed : table.Keyed) (stored : table.row key = some (.cashbox cashbox))
    (normal : cashbox.balance = cashbox.balanceCash + cashbox.balanceCard) (booked : book now override leg cashbox = .ok (saved,row))
    (user : Nat) (type : CashboxType) : balanceOf ((saveCashbox key saved).apply table) user type =
      balanceOf table user type + (⟨cashbox.userId,cashbox.cashboxType,leg.signed⟩ : Move).on user type := by
  obtain ⟨updated,-⟩ := book_parts booked
  obtain ⟨savedType,savedUser,-,split,shift⟩ := updateBalancesByMethod_parts updated
  have put := balanceOf_put keyed key (.cashbox saved) user type
  have applied : (saveCashbox key saved).apply table = table.put key (.cashbox saved) := by
    rw [Write.apply,saveCashbox_key,stored,saveCashbox_result]
  have signed : leg.signed = sign leg.operationType * leg.amount := rfl
  rw [applied]
  rw [stored] at put
  simp only [Option.elim_some,Row.holds,savedType,savedUser] at put
  by_cases owner : cashbox.userId = user ∧ cashbox.cashboxType = type
  · simp only [Move.on,owner,and_self,if_true] at put ⊢
    omega
  · simp only [Move.on,owner,if_false] at put ⊢
    omega

theorem pair_moves {table : Table Row} (keyed : table.Keyed) (apart : left ≠ right) (atLeft : table.row left = some (.cashbox a))
    (atRight : table.row right = some (.cashbox b)) (normalLeft : a.balance = a.balanceCash + a.balanceCard)
    (normalRight : b.balance = b.balanceCash + b.balanceCard) (bookedLeft : book now o leg a = .ok (a',rowA))
    (bookedRight : book now' o' leg' b = .ok (b',rowB)) (user : Nat) (type : CashboxType) :
    balanceOf (applyWrites table [saveCashbox left a',saveCashbox right b']) user type = balanceOf table user type +
      moved [⟨a.userId,a.cashboxType,leg.signed⟩,⟨b.userId,b.cashboxType,leg'.signed⟩] user type := by
  have untouched : ((saveCashbox left a').apply table).row right = some (.cashbox b) := by
    rw [apply_row,saveCashbox_key,if_neg apart,atRight]
  have first := save_moves keyed atLeft normalLeft bookedLeft user type
  have second := save_moves (apply_keyed _ keyed) untouched normalRight bookedRight user type
  simp only [applyWrites,List.foldl_cons,List.foldl_nil,moved,List.map_cons,List.map_nil,List.sum_cons,List.sum_nil]
  omega

-- What each payment moves. A click-to-market payment goes through the receiver to the market.
def CourierPayment.moves (data : CourierPayment) : List Move :=
  [⟨data.courierId,.forCourier,-data.amount⟩,⟨data.receiver,data.receiverType,data.amount⟩] ++
  match data.paymentMethod,data.marketId with
  | some .clickToMarket,some marketId => [⟨data.receiver,data.receiverType,-data.amount⟩,⟨marketId,.forMarket,-data.amount⟩]
  | _,_ => []
def BranchPayment.moves (data : BranchPayment) : List Move :=
  [⟨data.branchId,.branch,-data.amount⟩,⟨mainCashboxUserId,.main,data.amount⟩]
def MarketPayment.moves (data : MarketPayment) : List Move :=
  [⟨mainCashboxUserId,.main,-data.amount⟩,⟨data.marketId,.forMarket,-data.amount⟩]

@[simp] theorem keyedLeg_signed (source : SourceType) (id : Nat) (amount : Int) (method : PaymentMethod) (token : String) :
    (keyedLeg source id amount method token).signed = -amount := by
  simp [keyedLeg,Leg.signed,sign]
@[simp] theorem plainLeg_signed (operation : OperationType) (source : SourceType) (id : Nat) (amount : Int) (method : PaymentMethod) :
    (plainLeg operation source id amount method).signed = sign operation * amount := rfl

theorem moved_append (left right : List Move) (user : Nat) (type : CashboxType) :
    moved (left ++ right) user type = moved left user type + moved right user type := by
  simp [moved]

def Movement.replays : Movement → Bool
  | .balanceReplay _ => true
  | .paymentReplay => true
  | _ => false

-- A request commits once: the moves it stands for, or nothing when it is a repetition.
def Shifts (moves : List Move) : Guarantee Row CashboxHistory Movement := fun held made note writes _ =>
  made = [] ∧ if note.replays then writes = [] else
    ∀ table : Table Row,table.Keyed → Normal table → Sees held table → ∀ user type,
      balanceOf (applyWrites table writes) user type = balanceOf table user type + moved moves user type
-- An answer that is not a replay's follows that commit.
def Applied : Reply Movement (Except RpcError Answer) := fun made reply =>
  ∀ done,reply = .ok done → done.idempotent = false → ∃ note,made = [note] ∧ note.replays = false

end Elchi.Finance
