import Elchi.AutoPayment
namespace Elchi.Orders
open RowLock

-- A column of type int: whole so'm of 32 bits. The database refuses every other text.
def intColumn (tiyin : Int) : Option Int :=
  if tiyin % 100 = 0 ∧ -2147483648 ≤ tiyin / 100 ∧ tiyin / 100 ≤ 2147483647 then some (tiyin / 100) else none
def Fits (tiyin : Int) : Prop := ∃ stored,intColumn tiyin = some stored ∧ stored * 100 = tiyin
-- What a sale writes to the columns to_be_paid and paid_amount.
def SaleFits (update : UpdateDto) : Prop :=
  ∃ net paid,update.toBePaid = some net ∧ update.paidAmount = some paid ∧ Fits net ∧ Fits paid

-- The market's income is whole so'm of 32 bits, and so is what counts as paid: all of the income,
-- or what is asked for and the market's debt.
def SaleFigures.FitsColumns (figures : SaleFigures) : Prop :=
  figures.price ≤ figures.marketTariff ∨
  (figures.price - figures.marketTariff) % 100 = 0 ∧ figures.price - figures.marketTariff ≤ 214748364700 ∧
    (figures.price - figures.marketTariff ≤ max figures.requestedPaid 0 + figures.debtBeforeSale ∨
      (max figures.requestedPaid 0 + figures.debtBeforeSale) % 100 = 0)
-- The amounts the tables admit: numeric(14,2).
def numeric (tiyin : Int) : Bool := -100000000000000 < tiyin && tiyin < 100000000000000

theorem fits_iff {tiyin : Int} : Fits tiyin ↔ tiyin % 100 = 0 ∧ -214748364800 ≤ tiyin ∧ tiyin ≤ 214748364700 := by
  unfold Fits intColumn
  constructor
  · rintro ⟨stored,here,same⟩
    split at here
    · cases here
      omega
    · cases here
  · intro whole
    exact ⟨tiyin / 100,if_pos (by omega),by omega⟩

namespace SaleFigures
theorem debtBeforeSale_some (figures : SaleFigures) : 0 ≤ figures.debtBeforeSale := by
  unfold debtBeforeSale
  split
  · omega
  · omega

-- What counts as paid is what is asked for and the market's debt, up to the income.
theorem paidAfter_exact (figures : SaleFigures) : paidAfter figures.net figures.currentPaid figures.marketBalance =
    min figures.net (max figures.requestedPaid 0 + figures.debtBeforeSale) := by
  have debt := figures.debtBeforeSale_some
  have income : 0 ≤ figures.net := Int.le_max_right _ _
  rw [paidAfter_autoPay]
  simp only [autoPay,remainingBeforeDebt,currentPaid]
  omega

theorem amounts_fit (figures : SaleFigures) :
    Fits figures.net ∧ Fits (paidAfter figures.net figures.currentPaid figures.marketBalance) ↔ figures.FitsColumns := by
  rw [figures.paidAfter_exact,fits_iff,fits_iff]
  have debt := figures.debtBeforeSale_some
  have asked : 0 ≤ max figures.requestedPaid 0 := Int.le_max_right _ _
  unfold FitsColumns
  rcases Int.le_total figures.price figures.marketTariff with covered | income
  · have none : figures.net = 0 := Int.max_eq_right (by omega)
    rw [none,Int.min_eq_left (by omega)]
    exact iff_of_true (by decide) (.inl covered)
  · have all : figures.net = figures.price - figures.marketTariff := Int.max_eq_left (by omega)
    rw [all]
    rcases Int.le_total (figures.price - figures.marketTariff) (max figures.requestedPaid 0 + figures.debtBeforeSale) with full | part
    · rw [Int.min_eq_left full]
      omega
    · rw [Int.min_eq_right part]
      omega
end SaleFigures

theorem update_fits {update : UpdateDto} {income paid : Int} (toBePaid : update.toBePaid = some income)
    (paidAmount : update.paidAmount = some paid) : SaleFits update ↔ Fits income ∧ Fits paid := by
  constructor
  · rintro ⟨income',paid',first,second,fit⟩
    cases toBePaid.symm.trans first
    cases paidAmount.symm.trans second
    exact fit
  · intro fit
    exact ⟨income,paid,toBePaid,paidAmount,fit⟩

-- A sale and a partial sale of one order, whoever asks and whatever the other services answer.
theorem sale_fits_exact {id : Nat} (lookups : Lookups) (requester : Requester) (row : OrderRow) (requestId : Option String) :
    (∀ dto plan,sellPlan lookups requester id row.order dto requestId = .ok plan →
      ∃ figures,figuresOf {call:=.sell lookups requester id dto requestId,loaded:=some row.order} = some figures ∧
        (SaleFits plan.update ↔ figures.FitsColumns)) ∧
    ∀ dto token plan,partlySellPlan lookups requester id row dto requestId token = .ok plan →
      ∃ figures,figuresOf {call:=.partlySell lookups requester id dto requestId token,loaded:=some row.order} = some figures ∧
        (SaleFits plan.update ↔ figures.FitsColumns) := by
  constructor
  · intro dto plan planned
    obtain ⟨courierId,parties,_,_,found,rfl⟩ := sellPlan_sale planned
    have market := (saleParties_parts found).1
    have balance := saleParties_balance found
    refine ⟨⟨row.order.marketId,row.order.totalPrice,parties.market.tariff row.order.whereDeliver,max (dto.extraCost.getD 0) 0,
      dto.paidAmount.getD row.order.paidAmount,parties.marketBalance⟩,?_,?_⟩
    · simp [figuresOf,market,balance]
    · rw [←SaleFigures.amounts_fit]
      exact update_fits rfl rfl
  · intro dto token plan planned
    obtain ⟨courierId,parties,_,_,_,found,same⟩ := partlySellPlan_sale planned
    have market := (saleParties_parts found).1
    have balance := saleParties_balance found
    refine ⟨⟨row.order.marketId,dto.totalPrice,row.order.marketTariff.getD (parties.market.tariff row.order.whereDeliver),
      max (dto.extraCost.getD 0) 0,row.order.paidAmount,parties.marketBalance⟩,?_,?_⟩
    · simp [figuresOf,market,balance]
    · rw [←SaleFigures.amounts_fit,same]
      exact update_fits rfl rfl

def pricedOrder (price : Int) : OrderRow := ⟨{sampleOrder with totalPrice:=price},[⟨1,2⟩],none⟩
def plannedUpdate (marketTariff price : Int) : Option UpdateDto :=
  match sellPlan (sampleLookups marketTariff 1000) sampleCourier 11 (pricedOrder price).order {} (some "a") with
  | .ok plan => some plan.update
  | .error _ => none

theorem plannedUpdate_some (planned : plannedUpdate marketTariff price = some update) : ∃ plan,
    sellPlan (sampleLookups marketTariff 1000) sampleCourier 11 (pricedOrder price).order {} (some "a") = .ok plan ∧
    plan.update = update := by
  unfold plannedUpdate at planned
  split at planned
  · rename_i plan here
    exact ⟨plan,here,Option.some.inj planned⟩
  · cases planned

theorem sale_fits_ordinary : ∃ plan,
    sellPlan (sampleLookups 3000000 1000) sampleCourier 11 (pricedOrder 10000000).order {} (some "a") = .ok plan ∧ SaleFits plan.update := by
  have planned : (plannedUpdate 3000000 10000000).isSome = true := by decide
  obtain ⟨update,planned⟩ := Option.isSome_iff_exists.mp planned
  obtain ⟨plan,planned,-⟩ := plannedUpdate_some planned
  obtain ⟨figures,known,exact⟩ := (sale_fits_exact _ _ (pricedOrder 10000000) _).1 {} plan planned
  refine ⟨plan,planned,exact.mpr ?_⟩
  cases known
  unfold SaleFigures.FitsColumns
  decide

-- 100000.50 so'm: half a so'm is left over. 2200000000 so'm: above 32 bits.
theorem sale_overflows_columns : numeric 3000000 = true ∧ ∀ price ∈ [10000050,220000000000],numeric price = true ∧ ∃ plan,
    sellPlan (sampleLookups 3000000 1000) sampleCourier 11 (pricedOrder price).order {} (some "a") = .ok plan ∧
    ¬SaleFits plan.update := by
  refine ⟨by decide,?_⟩
  intro price member
  have admitted : ∀ price ∈ [10000050,220000000000],numeric price = true := by decide
  have planned : ∀ price ∈ [10000050,220000000000],(plannedUpdate 3000000 price).map UpdateDto.toBePaid = some (some (price - 3000000)) := by
    decide
  obtain ⟨update,found,net⟩ := Option.map_eq_some_iff.mp (planned price member)
  obtain ⟨plan,accepted,rfl⟩ := plannedUpdate_some found
  refine ⟨admitted price member,plan,accepted,?_⟩
  rintro ⟨net',paid,written,-,fit,-⟩
  cases net.symm.trans written
  have whole := fits_iff.mp fit
  simp only [List.mem_cons,List.not_mem_nil,or_false] at member
  omega

end Elchi.Orders
