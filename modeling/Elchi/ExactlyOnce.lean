import Elchi.BalanceEvents
import Elchi.LegKeys
namespace Elchi
open RowLock

namespace Finance

-- One cashbox under consumers of update_balance messages, in any order and with any copies: its
-- balance, and which messages it counts. A message is counted under its key once, and an
-- answered one has been counted, here or at another cashbox it names.
structure AppliedOnce (books : Books) (deliveries : List Delivery) (turns : List Turn) (id : Nat) (opening : Cashbox)
    (amount : DedupKey → Int) : Prop where
  balance : ∃ closing,(consume books deliveries turns).table.row id = some (.cashbox closing) ∧
    closing.balance = opening.balance +
      (∑ key ∈ keysOf (deliveredTo (consume books deliveries turns).log id) \
        ((slice books.journal id).map fun row => row.key).toFinset,amount key) +
      unkeyedSum (deliveredTo (consume books deliveries turns).log id)
  counted : ∀ dto ∈ deliveredTo (consume books deliveries turns).log id,(∃ d ∈ deliveries,d.2 = dto) ∧ dto.Addresses id opening
  complete : ∀ (who : Nat) d reply held,deliveries[who]? = some d → 0 < d.2.amount → d.2.Addresses id opening →
    (consume books deliveries turns).sessions[who]? = some ⟨.done reply,held⟩ →
    ∃ key cashbox,books.table.row key = some (.cashbox cashbox) ∧ d.2.Addresses key cashbox ∧
      d.2 ∈ deliveredTo (consume books deliveries turns).log key

end Finance

open Finance (Books Delivery DedupKey Cashbox Copies AppliedOnce consume deliveredTo)

-- A market's cashbox, the market's leg of one sale delivered twice, the second consumer waiting
-- for the first; and an order sold, rolled back and sold again.
def openMarket : List Finance.Call := [.createCashbox ⟨1,.forMarket,none,none,none⟩]
def sampleBooks : Books := Finance.reached (show ∀ call ∈ openMarket,call.Permitted by decide) (List.replicate 3 (.step 0 0))
def sampleLeg : Finance.UpdateCashboxBalanceDto :=
  ⟨none,some 1,some .forMarket,7000000,.income,.sell,some .cash,some 11,some "req:a",none⟩
def twoCopies : List Delivery := [(20,sampleLeg),(30,sampleLeg)]
def twoCopiesTurns : List Turn := [.step 0 0,.step 1 0,.step 0 0,.step 1 0,.step 1 0]
def soldTwice : List Orders.Call :=
  [.sell (Orders.sampleLookups 3000000 1000) Orders.sampleCourier 11 {} (some "a"),
   .rollback (Orders.sampleLookups 3000000 900000) Orders.sampleCourier 11 none (some "b"),
   .sell (Orders.sampleLookups 3000000 1000000) Orders.sampleCourier 11 {} (some "c")]
def soldTwiceTurns : List Turn := (List.range 3).flatMap fun who => List.replicate 8 (.step who 0)

end Elchi
