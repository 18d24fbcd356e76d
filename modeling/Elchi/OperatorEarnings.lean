import Mathlib.Algebra.BigOperators.Fin
import Elchi.FinancialLedger
import Elchi.LockedRuns
namespace Elchi.Finance
open RowLock (Table)

-- What identity answers about an operator; a value that is not a finite number is none.
structure OperatorCommission where
  commissionType : Option String
  commissionValue : Option ℚ
deriving DecidableEq, Repr

-- The row of an order in operator_earnings; the value is kept in hundredths.
structure OperatorEarning where
  operatorId : Nat
  marketId : Option Nat
  amount : Int
  commissionType : Option String
  commissionValue : Int
  orderTotalPrice : Int
  isDeleted : Bool
deriving DecidableEq, Repr
structure OperatorPayment where
  operatorId : Nat
  amount : Int
  isDeleted : Bool
deriving DecidableEq, Repr

structure EarningInput where
  orderId : Nat
  operatorId : Option Nat
  marketId : Option Nat
  totalPrice : Option Int

inductive EarningAnswer where
  | noOperator
  | zeroCommission
  | updated (row : OperatorEarning)
  | recorded (row : OperatorEarning)
  | nothingToRemove
  | removed
deriving DecidableEq, Repr

-- In tiyin; a fixed commission is a number of so'm.
def computeCommission (type : Option String) (value : Option ℚ) (totalPrice : Int) : ℚ :=
  match value with
  | none => 0
  | some value =>
    if type = none ∨ type = some "" ∨ value ≤ 0 then 0
    else if type = some "percent" then max (((max totalPrice 0 : Int) : ℚ) * value / 100) 0
    else if type = some "fixed" then max (value * 100) 0
    else 0
-- An unknown operator has no commission.
def commissionOf (operator : Option OperatorCommission) (totalPrice : Int) : ℚ :=
  computeCommission (operator.bind (·.commissionType)) ((operator.map (·.commissionValue)).getD (some 0)) totalPrice

-- order_id is unique: the table is kept under it.
def recordOperatorEarning (input : EarningInput) (operator : Option OperatorCommission) (rows : Table OperatorEarning) :
    EarningAnswer × Table OperatorEarning :=
  match input.operatorId with
  | none => (.noOperator,rows)
  | some operatorId =>
    let totalPrice := input.totalPrice.getD 0
    let amount := commissionOf operator totalPrice
    let type := operator.bind (·.commissionType)
    let value := ((operator.map (·.commissionValue)).getD (some 0)).getD 0
    if amount ≤ 0 then (.zeroCommission,rows)
    else match rows.row input.orderId with
    -- The row is found whether it is deleted or not, and is saved with its flag as it was.
    | some existing =>
      let saved := {existing with
        amount:=numeric2 amount,operatorId:=operatorId,marketId:=input.marketId.or existing.marketId,commissionType:=type,
        commissionValue:=numeric2 (value * 100),orderTotalPrice:=totalPrice}
      (.updated saved,rows.put input.orderId saved)
    | none =>
      let saved := ⟨operatorId,input.marketId,numeric2 amount,type,numeric2 (value * 100),totalPrice,false⟩
      (.recorded saved,rows.put input.orderId saved)

def removeOperatorEarning (orderId : Nat) (rows : Table OperatorEarning) : EarningAnswer × Table OperatorEarning :=
  match rows.row orderId with
  | none => (.nothingToRemove,rows)
  | some existing => (.removed,rows.put orderId {existing with isDeleted:=true})

structure OperatorBalance where
  earned : Int
  paid : Int
  balance : Int
deriving DecidableEq, Repr
def findOperatorBalance (rows : Table OperatorEarning) (payments : List OperatorPayment) (operatorId : Nat) : OperatorBalance :=
  let earned := ((rows.filter fun entry => entry.2.operatorId == operatorId && !entry.2.isDeleted).map (·.2.amount)).sum
  let paid := ((payments.filter fun payment => payment.operatorId == operatorId && !payment.isDeleted).map (·.amount)).sum
  {earned:=earned,paid:=paid,balance:=earned - paid}

-- One delivery of an event, with what identity answers it.
structure EarningDelivery where
  event : Orders.OrderEvent
  operator : Option OperatorCommission
def EarningDelivery.apply (rows : Table OperatorEarning) (delivery : EarningDelivery) : Table OperatorEarning :=
  match delivery.event with
  | .earningRecord orderId operatorId marketId totalPrice =>
    (recordOperatorEarning ⟨orderId,some operatorId,some marketId,some totalPrice⟩ delivery.operator rows).2
  | .earningRemove orderId => (removeOperatorEarning orderId rows).2
  | _ => rows
def earningsAfter (got : List EarningDelivery) : Table OperatorEarning := got.foldl EarningDelivery.apply []

-- The sale of each order that stands: its operator and the commission computed when the sale
-- was first heard of.
abbrev Sales := Nat → Option (Nat × Int)
def EarningDelivery.sale (sales : Sales) (delivery : EarningDelivery) : Sales :=
  match delivery.event with
  | .earningRecord orderId operatorId _ totalPrice => fun id =>
    if id = orderId then (sales id).or (some (operatorId,numeric2 (commissionOf delivery.operator totalPrice))) else sales id
  | .earningRemove orderId => fun id => if id = orderId then none else sales id
  | _ => sales
def salesAfter (got : List EarningDelivery) : Sales := got.foldl EarningDelivery.sale fun _ => none

-- The events in the order enqueued, each with any number of redeliveries while it is the latest.
inductive Delivered : List Orders.OrderEvent → List EarningDelivery → Prop where
  | nothing : Delivered [] []
  | next (prior : Delivered events got) (delivery : EarningDelivery) : Delivered (events ++ [delivery.event]) (got ++ [delivery])
  | again (delivery : EarningDelivery) (prior : Delivered (events ++ [delivery.event]) got) :
      Delivered (events ++ [delivery.event]) (got ++ [delivery])

def isRemoved (rows : Table OperatorEarning) (orderId : Nat) : Bool := (rows.row orderId).any (·.isDeleted)
-- The deliveries that keep this operator's earnings right: a new sale with a commission finds no
-- removed row of its order, and a redelivery computes what the first delivery did, or nothing.
def Honoured (operatorId : Nat) (got : List EarningDelivery) (delivery : EarningDelivery) : Prop :=
  match delivery.event with
  | .earningRecord orderId recordedId _ totalPrice => recordedId = operatorId →
    match salesAfter got orderId with
    | none => isRemoved (earningsAfter got) orderId = true → numeric2 (commissionOf delivery.operator totalPrice) = 0
    | some (_,commission) => commissionOf delivery.operator totalPrice ≤ 0 ∨ isRemoved (earningsAfter got) orderId = true ∨
        numeric2 (commissionOf delivery.operator totalPrice) = commission
  | _ => True

instance (operatorId : Nat) (got : List EarningDelivery) (delivery : EarningDelivery) : Decidable (Honoured operatorId got delivery) :=
  match delivery with
  | ⟨.earningRecord orderId recordedId _ totalPrice,operator⟩ =>
    match sale : salesAfter got orderId with
    | none => decidable_of_iff
        (recordedId = operatorId → isRemoved (earningsAfter got) orderId = true → numeric2 (commissionOf operator totalPrice) = 0)
        (by simp [Honoured,sale])
    | some (_,commission) => decidable_of_iff
        (recordedId = operatorId → commissionOf operator totalPrice ≤ 0 ∨ isRemoved (earningsAfter got) orderId = true ∨
          numeric2 (commissionOf operator totalPrice) = commission)
        (by simp [Honoured,sale])
  | ⟨.earningRemove _,_⟩ => .isTrue trivial
  | ⟨.balance _,_⟩ => .isTrue trivial
  | ⟨.financialBalance _ _ _ _ _,_⟩ => .isTrue trivial

-- What an order's row counts for, and what its standing sale is worth, to one operator.
def credited (rows : Table OperatorEarning) (operatorId id : Nat) : Int :=
  match rows.row id with
  | some row => if row.operatorId = operatorId ∧ row.isDeleted = false then row.amount else 0
  | none => 0
def due (sales : Sales) (operatorId id : Nat) : Int :=
  match sales id with
  | some (saleOperator,commission) => if saleOperator = operatorId then commission else 0
  | none => 0

theorem earningsAfter_snoc (got : List EarningDelivery) (delivery : EarningDelivery) :
    earningsAfter (got ++ [delivery]) = delivery.apply (earningsAfter got) := by
  simp [earningsAfter]
theorem salesAfter_snoc (got : List EarningDelivery) (delivery : EarningDelivery) :
    salesAfter (got ++ [delivery]) = delivery.sale (salesAfter got) := by
  simp [salesAfter]

theorem computeCommission_nonneg (type : Option String) (value : Option ℚ) (totalPrice : Int) : 0 ≤ computeCommission type value totalPrice := by
  unfold computeCommission
  split
  · exact le_rfl
  · split
    · exact le_rfl
    · split
      · exact le_max_right _ _
      · split
        · exact le_max_right _ _
        · exact le_rfl
theorem numeric2_zero : numeric2 0 = 0 := by norm_num [numeric2]
theorem commission_none (low : commissionOf operator totalPrice ≤ 0) : numeric2 (commissionOf operator totalPrice) = 0 := by
  rw [le_antisymm low (computeCommission_nonneg _ _ _),numeric2_zero]

theorem record_row (input : EarningInput) (operator : Option OperatorCommission) (rows : Table OperatorEarning) {id : Nat}
    (other : input.orderId ≠ id) :
    (recordOperatorEarning input operator rows).2.row id = rows.row id := by
  unfold recordOperatorEarning
  split
  · rfl
  · dsimp only
    split
    · rfl
    · split
      · rw [RowLock.row_put,if_neg other]
      · rw [RowLock.row_put,if_neg other]
theorem remove_row (orderId : Nat) (rows : Table OperatorEarning) {id : Nat} (other : orderId ≠ id) :
    (removeOperatorEarning orderId rows).2.row id = rows.row id := by
  unfold removeOperatorEarning
  split
  · rfl
  · rw [RowLock.row_put,if_neg other]

theorem heard_keyed {rows : Table OperatorEarning} (keyed : rows.Keyed) (delivery : EarningDelivery) : (delivery.apply rows).Keyed := by
  unfold EarningDelivery.apply
  split
  · unfold recordOperatorEarning
    dsimp only
    split
    · exact keyed
    · split
      · exact RowLock.put_keyed keyed _ _
      · exact RowLock.put_keyed keyed _ _
  · unfold removeOperatorEarning
    split
    · exact keyed
    · exact RowLock.put_keyed keyed _ _
  · exact keyed
theorem earningsAfter_keyed (got : List EarningDelivery) : (earningsAfter got).Keyed := by
  induction got using List.reverseRecOn with
  | nil => exact .nil
  | append_singleton got delivery ih =>
    rw [earningsAfter_snoc]
    exact heard_keyed ih delivery

-- The order's own row after a record: an amount above zero is put on the row that is there, or
-- on a new one.
theorem record_own (orderId operatorId marketId : Nat) (totalPrice : Int) (operator : Option OperatorCommission) (rows : Table OperatorEarning) :
    commissionOf operator totalPrice ≤ 0 ∧
      (recordOperatorEarning ⟨orderId,some operatorId,some marketId,some totalPrice⟩ operator rows).2.row orderId = rows.row orderId ∨
    0 < commissionOf operator totalPrice ∧ ∃ row,
      (recordOperatorEarning ⟨orderId,some operatorId,some marketId,some totalPrice⟩ operator rows).2.row orderId = some row ∧
      row.operatorId = operatorId ∧ row.amount = numeric2 (commissionOf operator totalPrice) ∧ row.isDeleted = isRemoved rows orderId := by
  unfold recordOperatorEarning isRemoved
  dsimp only
  rw [Option.getD_some]
  by_cases low : commissionOf operator totalPrice ≤ 0
  · rw [if_pos low]
    exact .inl ⟨low,rfl⟩
  · rw [if_neg low]
    right
    refine ⟨not_le.mp low,?_⟩
    cases rows.row orderId with
    | some existing =>
      dsimp only
      rw [RowLock.row_put,if_pos rfl]
      exact ⟨_,rfl,rfl,rfl,rfl⟩
    | none =>
      dsimp only
      rw [RowLock.row_put,if_pos rfl]
      exact ⟨_,rfl,rfl,rfl,rfl⟩
theorem remove_own (orderId : Nat) (rows : Table OperatorEarning) :
    ∀ row,(removeOperatorEarning orderId rows).2.row orderId = some row → row.isDeleted = true := by
  unfold removeOperatorEarning
  cases here : rows.row orderId with
  | none =>
    dsimp only
    rw [here]
    nofun
  | some existing =>
    dsimp only
    rw [RowLock.row_put,if_pos rfl]
    rintro row ⟨⟩
    rfl

section Steps
variable {got : List EarningDelivery} {delivery : EarningDelivery}

-- A row that counts belongs to the operator of the order's standing sale.
def Attributed (got : List EarningDelivery) : Prop :=
  ∀ id row,(earningsAfter got).row id = some row → row.isDeleted = false → ∃ commission,salesAfter got id = some (row.operatorId,commission)
-- A delivery of a record finds no sale of its order standing, or one of the same operator.
def InTurn (got : List EarningDelivery) (delivery : EarningDelivery) : Prop :=
  ∀ orderId operatorId marketId totalPrice,delivery.event = .earningRecord orderId operatorId marketId totalPrice →
    ∀ sale,salesAfter got orderId = some sale → sale.1 = operatorId

theorem attributed_snoc (attributed : Attributed got) (fits : InTurn got delivery) : Attributed (got ++ [delivery]) := by
  intro id row here counts
  rw [earningsAfter_snoc] at here
  rw [salesAfter_snoc]
  obtain ⟨event,operator⟩ := delivery
  cases event with
  | earningRecord orderId operatorId marketId totalPrice =>
    simp only [EarningDelivery.apply,EarningDelivery.sale] at here ⊢
    by_cases mine : id = orderId
    · subst mine
      rw [if_pos rfl]
      have standing : (∃ commission,(salesAfter got id).or (some (operatorId,numeric2 (commissionOf operator totalPrice))) =
          some (operatorId,commission)) := by
        cases sale : salesAfter got id with
        | none => exact ⟨_,rfl⟩
        | some pair =>
          obtain ⟨other,commission⟩ := pair
          have same := fits _ _ _ _ rfl _ sale
          dsimp only at same
          rw [same]
          exact ⟨commission,rfl⟩
      rcases record_own id operatorId marketId totalPrice operator (earningsAfter got) with ⟨-,kept⟩ | ⟨-,saved,stored,owner,-,-⟩
      · rw [kept] at here
        obtain ⟨commission,sale⟩ := attributed id row here counts
        rw [sale]
        exact ⟨commission,rfl⟩
      · rw [stored] at here
        cases here
        rw [owner]
        exact standing
    · rw [if_neg mine]
      rw [record_row _ _ _ (Ne.symm mine)] at here
      exact attributed id row here counts
  | earningRemove orderId =>
    simp only [EarningDelivery.apply,EarningDelivery.sale] at here ⊢
    by_cases mine : id = orderId
    · subst mine
      have gone := remove_own id (earningsAfter got) row here
      rw [counts] at gone
      cases gone
    · rw [if_neg mine]
      rw [remove_row _ _ (Ne.symm mine)] at here
      exact attributed id row here counts
  | balance leg => exact attributed id row here counts
  | financialBalance amount source orderId relatedUserId comment => exact attributed id row here counts

-- The order a delivery is about; the others keep their row and their sale.
def EarningDelivery.orderId (delivery : EarningDelivery) : Option Nat :=
  match delivery.event with
  | .earningRecord orderId _ _ _ => some orderId
  | .earningRemove orderId => some orderId
  | _ => none
theorem apply_elsewhere (got : List EarningDelivery) {id : Nat} (other : delivery.orderId ≠ some id) (operatorId : Nat) :
    credited (earningsAfter (got ++ [delivery])) operatorId id = credited (earningsAfter got) operatorId id ∧
    due (salesAfter (got ++ [delivery])) operatorId id = due (salesAfter got) operatorId id := by
  rw [earningsAfter_snoc,salesAfter_snoc,credited,credited,due,due]
  obtain ⟨event,operator⟩ := delivery
  cases event with
  | earningRecord orderId recordedId marketId totalPrice =>
    have apart : id ≠ orderId := by
      rintro rfl
      exact other rfl
    simp only [EarningDelivery.apply,EarningDelivery.sale,if_neg apart]
    rw [record_row _ _ _ apart.symm]
    exact ⟨rfl,trivial⟩
  | earningRemove orderId =>
    have apart : id ≠ orderId := by
      rintro rfl
      exact other rfl
    simp only [EarningDelivery.apply,EarningDelivery.sale,if_neg apart]
    rw [remove_row _ _ apart.symm]
    exact ⟨rfl,trivial⟩
  | balance leg => exact ⟨rfl,rfl⟩
  | financialBalance amount source orderId relatedUserId comment => exact ⟨rfl,rfl⟩

theorem honoured_other {operatorId : Nat} (none : delivery.orderId = none) : Honoured operatorId got delivery := by
  unfold Honoured
  cases event : delivery.event with
  | earningRecord orderId recordedId marketId totalPrice => simp [EarningDelivery.orderId,event] at none
  | _ => trivial

theorem credited_foreign {operatorId id : Nat} (attributed : Attributed got) (sale : salesAfter got id = some (other,commission))
    (foreign : other ≠ operatorId) : credited (earningsAfter got) operatorId id = due (salesAfter got) operatorId id := by
  rw [credited,due,sale]
  dsimp only
  rw [if_neg foreign]
  split
  · rename_i row here
    split
    · rename_i counts
      obtain ⟨same,live⟩ := counts
      obtain ⟨_,mine⟩ := attributed id row here live
      rw [sale] at mine
      cases mine
      exact absurd same foreign
    · rfl
  · rfl

theorem sale_own {orderId : Nat} (event : delivery.event = .earningRecord orderId recordedId marketId totalPrice) :
    salesAfter (got ++ [delivery]) orderId =
      (salesAfter got orderId).or (some (recordedId,numeric2 (commissionOf delivery.operator totalPrice))) := by
  rw [salesAfter_snoc,EarningDelivery.sale,event]
  exact if_pos rfl
theorem earning_own {orderId : Nat} (event : delivery.event = .earningRecord orderId recordedId marketId totalPrice) :
    earningsAfter (got ++ [delivery]) =
      (recordOperatorEarning ⟨orderId,some recordedId,some marketId,some totalPrice⟩ delivery.operator (earningsAfter got)).2 := by
  rw [earningsAfter_snoc,EarningDelivery.apply,event]

theorem credited_saved {rows : Table OperatorEarning} {operatorId id : Nat} (here : rows.row id = some row) (owner : row.operatorId = operatorId) :
    credited rows operatorId id = if row.isDeleted = true then 0 else row.amount := by
  rw [credited,here]
  dsimp only
  cases row.isDeleted with
  | true => simp
  | false => simp [owner]
theorem credited_removed {rows : Table OperatorEarning} {id : Nat} (removed : isRemoved rows id = true) (operatorId : Nat) :
    credited rows operatorId id = 0 := by
  unfold isRemoved at removed
  unfold credited
  cases here : rows.row id with
  | none => rfl
  | some row =>
    rw [here,Option.any_some] at removed
    simp [removed]

-- From a right state the order's earning is right after a delivery exactly when it is honoured.
theorem honoured_exact {operatorId id : Nat} (attributed : Attributed got) (fits : InTurn got delivery) (mine : delivery.orderId = some id)
    (right : credited (earningsAfter got) operatorId id = due (salesAfter got) operatorId id) :
    credited (earningsAfter (got ++ [delivery])) operatorId id = due (salesAfter (got ++ [delivery])) operatorId id ↔
      Honoured operatorId got delivery := by
  unfold Honoured
  cases event : delivery.event with
  | earningRecord orderId recordedId marketId totalPrice =>
    have same : orderId = id := by simpa [EarningDelivery.orderId,event] using mine
    subst same
    have after : salesAfter (got ++ [delivery]) orderId = _ := sale_own event
    dsimp only
    by_cases own : recordedId = operatorId
    · subst own
      have recorded := record_own orderId recordedId marketId totalPrice delivery.operator (earningsAfter got)
      rw [←earning_own event] at recorded
      cases sale : salesAfter got orderId with
      | none =>
        rw [sale,Option.none_or] at after
        have worth : due (salesAfter (got ++ [delivery])) recordedId orderId = numeric2 (commissionOf delivery.operator totalPrice) := by
          simp [due,after]
        have before : credited (earningsAfter got) recordedId orderId = 0 := by
          simpa [due,sale] using right
        rw [worth]
        simp only [forall_const]
        rcases recorded with ⟨low,kept⟩ | ⟨high,row,stored,owner,amount,flag⟩
        · have nothing := commission_none low
          have same : credited (earningsAfter (got ++ [delivery])) recordedId orderId = 0 := by
            rw [credited,kept]
            exact before
          rw [same,nothing]
          simp
        · rw [credited_saved stored owner,flag,amount]
          cases isRemoved (earningsAfter got) orderId with
          | true => simp [eq_comm]
          | false => simp
      | some pair =>
        obtain ⟨operatorId,commission⟩ := pair
        cases fits _ _ _ _ event _ sale
        rw [sale,Option.some_or] at after
        have worth : due (salesAfter (got ++ [delivery])) operatorId orderId = commission := by
          simp [due,after]
        have before : credited (earningsAfter got) operatorId orderId = commission := by
          simpa [due,sale] using right
        rw [worth]
        simp only [forall_const]
        rcases recorded with ⟨low,kept⟩ | ⟨high,row,stored,owner,amount,flag⟩
        · have same : credited (earningsAfter (got ++ [delivery])) operatorId orderId = commission := by
            rw [credited,kept]
            exact before
          exact iff_of_true same (.inl low)
        · rw [credited_saved stored owner,flag,amount]
          cases removed : isRemoved (earningsAfter got) orderId with
          | true =>
            rw [credited_removed removed] at before
            simp [before]
          | false => simp [high.not_ge]
    · refine iff_of_true ?_ fun same => absurd same own
      cases sale : salesAfter got orderId with
      | none =>
        rw [sale,Option.none_or] at after
        exact credited_foreign (attributed_snoc attributed fits) after own
      | some pair =>
        obtain ⟨other,commission⟩ := pair
        have named := fits _ _ _ _ event _ sale
        rw [sale,Option.some_or] at after
        exact credited_foreign (attributed_snoc attributed fits) after fun same => own (named.symm.trans same)
  | earningRemove orderId =>
    have same : orderId = id := by simpa [EarningDelivery.orderId,event] using mine
    subst same
    refine iff_of_true ?_ trivial
    have gone : salesAfter (got ++ [delivery]) orderId = none := by
      rw [salesAfter_snoc,EarningDelivery.sale,event]
      exact if_pos rfl
    have rows : earningsAfter (got ++ [delivery]) = (removeOperatorEarning orderId (earningsAfter got)).2 := by
      rw [earningsAfter_snoc,EarningDelivery.apply,event]
    have removed := remove_own orderId (earningsAfter got)
    rw [←rows] at removed
    rw [credited,due,gone]
    dsimp only
    cases here : (earningsAfter (got ++ [delivery])).row orderId with
    | none => rfl
    | some row => simp [removed row here]
  | balance leg => simp [EarningDelivery.orderId,event] at mine
  | financialBalance amount source orderId relatedUserId comment => simp [EarningDelivery.orderId,event] at mine

end Steps

end Elchi.Finance
