import Elchi.DepotParts
import Elchi.SaleLegs
namespace Elchi.Partners
open Orders RowLock
open Elchi.Batches (CreateDto Depot)

-- A shipment request. `partnerId` is the id of the authenticated partner, which the gateway puts
-- into the message; amounts are in tiyin.
structure ShipmentItem where
  name : Option String
  quantity : Option Int
deriving DecidableEq, Repr
structure ShipmentDto where
  partnerId : Option Nat
  externalOrderId : Option String
  elchiMarketId : Option Nat
  customerName : Option String
  customerPhone : Option String
  address : Option String := none
  regionId : Option Nat := none
  districtId : Option Nat
  whereDeliver : Option String := none
  items : List ShipmentItem := []
  codAmount : Option Int := none
  subtotal : Option Int := none
deriving DecidableEq, Repr
structure PartnerShipmentRef where
  partnerId : Nat
  externalOrderId : String
  orderId : Nat
  isDeleted : Bool := false
deriving DecidableEq, Repr

def trimmed (text : Option String) : String := jsTrim (text.getD "")
def ShipmentDto.cod (dto : ShipmentDto) : Int := dto.codAmount.getD 0
def shipmentRefusal (dto : ShipmentDto) : Option RpcError :=
  if dto.partnerId.isNone then some (badRequest "partner_id majburiy")
  else if (trimmed dto.externalOrderId).isEmpty then some (badRequest "external_order_id majburiy")
  else if dto.elchiMarketId.isNone then some (badRequest "elchi_market_id majburiy")
  else if (trimmed dto.customerName).isEmpty || (trimmed dto.customerPhone).isEmpty then
    some (badRequest "customer.name va customer.phone majburiy")
  else if dto.districtId.isNone then some (badRequest "district_id majburiy (customer uchun)")
  else if dto.cod < 0 then some (badRequest "cod_amount manfiy bo‘lmasligi kerak")
  else none

-- slice(0, n) counts units of UTF-16; half of a pair is no text.
def sliceUnits : Nat → List Char → List Char
  | 0,_ => []
  | _,[] => []
  | 1,c :: _ => [if c.toNat < 0x10000 then c else '\uFFFD']
  | n+2,c :: rest => c :: if c.toNat < 0x10000 then sliceUnits (n+1) rest else sliceUnits n rest
def ShipmentItem.text (item : ShipmentItem) : String := jsTrim (toString (item.quantity.getD 1) ++ "x " ++ trimmed item.name)
def shipmentItemsComment (items : List ShipmentItem) : Option String :=
  let parts := (items.map ShipmentItem.text).filter fun text => !text.isEmpty && !text.startsWith "0x"
  if parts.isEmpty then none
  else some (String.ofList (sliceUnits 500 ("Marketplace: " ++ String.intercalate ", " parts).toList))

-- What identity is asked to create, and what the order service is.
structure CustomerDto where
  name : String
  phoneNumber : String
  districtId : Nat
deriving DecidableEq, Repr
def ShipmentDto.customer (dto : ShipmentDto) : CustomerDto :=
  ⟨trimmed dto.customerName,trimmed dto.customerPhone,dto.districtId.getD 0⟩
def ShipmentDto.order (dto : ShipmentDto) (customerId : Nat) : CreateDto :=
  {marketId:=dto.elchiMarketId.getD 0,customerId:=customerId,
   whereDeliver:=some (if dto.whereDeliver = some "address" then .address else .center),regionId:=dto.regionId,
   districtId:=dto.districtId,address:=dto.address,totalPrice:=some (dto.subtotal.getD dto.cod),toBePaid:=some dto.cod,
   source:=some .external,externalId:=some (trimmed dto.externalOrderId),comment:=shipmentItemsComment dto.items}

inductive ShipmentAnswer where
  | refused (error : RpcError)
  | existing (shipmentId : Nat)
  | created (shipmentId : Nat) (orderStatus : OrderStatus) (toBePaid : Int)
deriving DecidableEq, Repr
structure ShipmentDesk where
  refs : List PartnerShipmentRef
  depot : Depot

-- What the services answer to one shipment: the customer identity names, how the order service
-- records the partner as a requester, the refs that other requests save meanwhile, and whether
-- the save goes through.
structure ShipmentWorld where
  lookups : Lookups
  customer : CustomerDto → Option Nat
  recorded : Nat → Requester
  userBranch : Option Nat
  qrCodeToken : String
  meanwhile : List PartnerShipmentRef
  saves : Bool

def refOf (refs : List PartnerShipmentRef) (partnerId : Nat) (externalOrderId : String) : Option PartnerShipmentRef :=
  refs.find? fun ref => ref.partnerId == partnerId && ref.externalOrderId == externalOrderId
def existingRef (refs : List PartnerShipmentRef) (partnerId : Nat) (externalOrderId : String) : Option PartnerShipmentRef :=
  refOf (refs.filter fun ref => !ref.isDeleted) partnerId externalOrderId

-- The order's id is kept for the partner, once for each of his ids.
def saveShipmentRef (world : ShipmentWorld) (ref : PartnerShipmentRef) (answer : ShipmentAnswer) (desk : ShipmentDesk) :
    ShipmentDesk × ShipmentAnswer :=
  let refs := desk.refs ++ world.meanwhile
  if world.saves ∧ refOf refs ref.partnerId ref.externalOrderId = none then ({desk with refs:=refs ++ [ref]},answer)
  else match refOf refs ref.partnerId ref.externalOrderId with
  | some raced => ({desk with refs:=refs},.existing raced.orderId)
  | none => ({desk with refs:=refs},.refused ⟨500,"Shipment bog‘lanishini saqlab bo‘lmadi"⟩)

def createPartnerShipment (world : ShipmentWorld) (dto : ShipmentDto) (desk : ShipmentDesk) : ShipmentDesk × ShipmentAnswer :=
  match shipmentRefusal dto with
  | some error => (desk,.refused error)
  | none =>
    let partnerId := dto.partnerId.getD 0
    let externalOrderId := trimmed dto.externalOrderId
    match existingRef desk.refs partnerId externalOrderId with
    | some ref => (desk,.existing ref.orderId)
    | none => match world.customer dto.customer with
      | none => (desk,.refused ⟨502,"Customer yaratib bo‘lmadi"⟩)
      | some customerId =>
        match Batches.create world.lookups world.userBranch (dto.order customerId) (some (world.recorded partnerId)) world.qrCodeToken
          desk.depot with
        | .error error => (desk,.refused error)
        | .ok depot => saveShipmentRef world ⟨partnerId,externalOrderId,desk.depot.nextOrderId,false⟩
            (.created desk.depot.nextOrderId .new dto.cod) {desk with depot:=depot}

-- A courier sells the order, and the market, the courier and the branch it is settled through have no tariff.
structure SoldFree (lookups : Lookups) (requester : Requester) (order : Order) : Prop where
  courier : requester.isManagerRequester = false
  market : ∀ market,lookups.markets order.marketId = some market → market.tariff order.whereDeliver = 0
  staff : ∀ courierId,resolveActorCourierId requester order (order.postId.bind lookups.posts) = .ok courierId →
    ∀ staff,lookups.couriers courierId = some staff → staff.tariff order.whereDeliver = 0
  branch : resolveBranchShare lookups (resolveSettlementBranchId lookups order) = 0

-- What the sale charges: the courier's leg, the branch's leg, the settlement and what is left to be paid.
structure Charges (lookups : Lookups) (requester : Requester) (order : Order) (cod : Int) (plan : SalePlan) : Prop where
  courier : ∀ courier,partCourier lookups requester order = some courier → net plan.cod courier .forCourier = cod
  branch : ∀ branch,partBranch lookups order = some branch → net plan.cod branch .branch = cod
  settled : plan.settlement.courierAmount = cod ∧ plan.settlement.branchAmount = cod
  toBePaid : plan.update.toBePaid = some cod
  prepaid : cod = 0 → plan.cod = []

theorem saveShipmentRef_depot (world : ShipmentWorld) (ref : PartnerShipmentRef) (answer : ShipmentAnswer) (desk : ShipmentDesk) :
    (saveShipmentRef world ref answer desk).1.depot = desk.depot := by
  unfold saveShipmentRef
  dsimp only
  split
  · rfl
  · split
    · rfl
    · rfl
theorem saveShipmentRef_answer {world : ShipmentWorld} {ref : PartnerShipmentRef} {id : Nat} {status : OrderStatus} {toBePaid : Int}
    (made : (saveShipmentRef world ref answer desk).2 = .created id status toBePaid) : answer = .created id status toBePaid := by
  unfold saveShipmentRef at made
  dsimp only at made
  split at made
  · exact made
  · split at made
    · cases made
    · cases made

theorem shipmentRefusal_none (accepted : shipmentRefusal dto = none) : 0 ≤ dto.cod := by
  by_contra negative
  have below : dto.cod < 0 := by omega
  unfold shipmentRefusal at accepted
  simp only [below,if_true] at accepted
  repeat (first | split at accepted | cases accepted)

-- A created shipment: its row, and what its answer says.
theorem createPartnerShipment_parts {id : Nat} (made : createPartnerShipment world dto desk = (next,.created id status toBePaid)) :
    0 ≤ dto.cod ∧ toBePaid = dto.cod ∧ id = desk.depot.nextOrderId ∧ ∃ customerId requester branchId,
      next.depot = desk.depot.insertOrder
        ⟨Batches.createdOrder world.lookups (dto.order customerId) (some requester) branchId world.qrCodeToken,[],none⟩ := by
  unfold createPartnerShipment at made
  split at made
  · cases made
  rename_i accepted
  dsimp only at made
  split at made
  · cases made
  split at made
  · cases made
  rename_i customerId _
  split at made
  · cases made
  rename_i depot created
  obtain ⟨branchId,-,same⟩ := Batches.create_parts created
  have answer := saveShipmentRef_answer (congrArg Prod.snd made)
  have kept := congrArg (fun result : ShipmentDesk × ShipmentAnswer => result.1.depot) made
  rw [saveShipmentRef_depot] at kept
  cases answer
  exact ⟨shipmentRefusal_none accepted,rfl,rfl,customerId,_,branchId,kept.symm.trans same⟩

theorem free_terms (free : SoldFree lookups requester order)
    (resolved : resolveActorCourierId requester order (order.postId.bind lookups.posts) = .ok courierId)
    (acting : saleParties lookups requester order courierId = .ok parties) (dto : SellDto) :
    (sellTerms lookups requester order parties dto).marketTariff = 0 ∧ (sellTerms lookups requester order parties dto).courierShare = 0 ∧
      (sellTerms lookups requester order parties dto).branchShare = 0 := by
  obtain ⟨market,-,-,staff⟩ := saleParties_parts acting
  rw [free.courier] at staff
  refine ⟨free.market _ market,?_,free.branch⟩
  have tariff : parties.financialActor.tariff order.whereDeliver = 0 := free.staff courierId resolved _ staff
  simp only [sellTerms,saleTerms,free.courier,resolveSaleActorShare,resolveCourierShare,tariff]
  simp

-- Without tariffs every leg is the price of the order.
theorem free_sale_charges {id : Nat} {cod : Int} (free : SoldFree lookups requester order) (owed : 0 ≤ cod)
    (planned : sellPlan lookups requester id order dto requestId = .ok plan) :
    Charges lookups requester order cod plan ↔ order.totalPrice = cod := by
  obtain ⟨-,courierId,parties,comment,files,paid,resolved,acting,same⟩ := sellPlan_parts planned
  obtain ⟨noMarket,noCourier,noBranch⟩ := free_terms free resolved acting dto
  have price : (sellTerms lookups requester order parties dto).price = order.totalPrice := rfl
  have amount : (sellTerms lookups requester order parties dto).branchNet = order.totalPrice := by
    rw [SaleTerms.branchNet,price,noCourier,noBranch]
    omega
  have cod' : plan.cod = codLegs (saleLeg id requester (resolveDedupEpoch lookups requestId)
      ((sellTerms lookups requester order parties dto).comment "sotuvi" comment) .sell []) order.marketId parties.courier
      (sellTerms lookups requester order parties dto).branch order.totalPrice order.totalPrice order.totalPrice := by
    rw [same,salePlan]
    dsimp only
    rw [resolveBranchCashboxSaleAmount,amount,noMarket,noCourier,price,Int.sub_zero]
  have taker : partCourier lookups requester order = some courierId := by
    rw [partCourier,resolved,free.courier]
    rfl
  have mine : parties.courier = some courierId := (parties_courier resolved acting).trans taker
  constructor
  · intro charges
    have leg := charges.courier courierId taker
    rw [cod',mine,cod_courier] at leg
    exact leg
  · intro exact
    refine ⟨?_,?_,?_,?_,?_⟩
    · intro courier takes
      cases taker.symm.trans takes
      rw [cod',mine,cod_courier,exact]
    · intro branch takes
      have through : (sellTerms lookups requester order parties dto).branch = some branch := takes
      rw [cod',through,cod_branch,exact]
    · rw [same]
      simp only [salePlan,saleSettlement,amount,noCourier,price,exact]
      omega
    · rw [same]
      simp only [salePlan,saleUpdate,SaleTerms.net,noMarket,price,exact]
      exact congrArg some (by omega)
    · intro prepaid
      rw [cod',exact,prepaid]
      cases parties.courier <;> cases (sellTerms lookups requester order parties dto).branch <;> rfl

def shipmentOf (cod : Int) (subtotal : Option Int) : ShipmentDto :=
  {partnerId:=some 7,externalOrderId:=some "ord-9",elchiMarketId:=some 500,customerName:=some "Ali",customerPhone:=some "+998901234567",
   districtId:=some 10,regionId:=some 1,codAmount:=some cod,subtotal:=subtotal}
def freeLookups : Lookups :=
  {sampleLookups 0 1000 with
    markets:=fun _ => some ⟨some 0,some 0,[]⟩,couriers:=fun _ => some ⟨some 0,some 0,some .perOrder⟩}
def shipmentWorld : ShipmentWorld :=
  {lookups:=freeLookups,customer:=fun _ => some 77,recorded:=fun partnerId => ⟨partnerId,[.superadmin],none⟩,userBranch:=none,
   qrCodeToken:="qr-abc",meanwhile:=[],saves:=true}
def shipped (cod : Int) (subtotal : Option Int) : ShipmentDesk × ShipmentAnswer :=
  createPartnerShipment shipmentWorld (shipmentOf cod subtotal) ⟨[],Batches.emptyDepot⟩
-- The order as its courier carries it.
def outFor (order : Order) : Order := {order with status:=.waiting,postId:=some 5,courierId:=some 7}

theorem outFor_free (order : Order) : SoldFree freeLookups sampleCourier (outFor order) := by
  refine ⟨rfl,?_,?_,?_⟩
  · rintro market ⟨⟩
    cases h : (outFor order).whereDeliver <;> rfl
  · rintro courierId - staff ⟨⟩
    cases h : (outFor order).whereDeliver <;> rfl
  · unfold resolveBranchShare
    cases resolveSettlementBranchId freeLookups (outFor order) <;> rfl

def saleOf (row : OrderRow) : Option (Int × Int × Option Int) :=
  match sellPlan freeLookups sampleCourier 1 (outFor row.order) {} (some "a") with
  | .ok plan => some (net plan.cod 7 .forCourier,plan.settlement.courierAmount,plan.update.toBePaid)
  | .error _ => none
theorem shipped_sold {cod : Int} {subtotal : Option Int} (sold : ((shipped cod subtotal).1.depot.orders.row 1).bind saleOf = some amounts) :
    ∃ created plan,(shipped cod subtotal).1.depot.orders.row 1 = some created ∧
      sellPlan freeLookups sampleCourier 1 (outFor created.order) {} (some "a") = .ok plan ∧
      (net plan.cod 7 .forCourier,plan.settlement.courierAmount,plan.update.toBePaid) = amounts := by
  obtain ⟨created,here,sale⟩ := Option.bind_eq_some_iff.mp sold
  unfold saleOf at sale
  split at sale
  · rename_i plan planned
    exact ⟨created,plan,here,planned,Option.some.inj sale⟩
  · cases sale

end Elchi.Partners
