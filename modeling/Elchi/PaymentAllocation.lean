import Mathlib.Algebra.BigOperators.Group.List.Basic
import Elchi.PaidAmounts
namespace Elchi.Orders
open RowLock

-- The orders of a market that a payment is for, and what each of them owes.
def payableOrder (marketId _key : Nat) (row : OrderRow) : Bool :=
  !row.order.isDeleted && row.order.deletedAt.isNone && row.order.marketId == marketId &&
    (row.order.status == .sold || row.order.status == .partlyPaid)
def payableOrders (table : Table OrderRow) (marketId : Nat) : Table OrderRow := table.select (payableOrder marketId)
def unpaid (order : Order) : Int := order.toBePaid - order.paidAmount
def unpaidAll (orders : Table OrderRow) : Int := (orders.map fun entry => unpaid entry.2.order).sum

-- Every update of the payment is answered with success.
def Accepted (lookups : Lookups) : List PaymentWrite → OrderStore → Prop
  | [],_ => True
  | write :: rest,store => ∃ answer next,
      (updateFull lookups none write.id write.dto).perform store = (some (.ok answer),next) ∧ Accepted lookups rest next

def Changed (before : OrderRow) (after : OrderRow) : Prop :=
  after.order.paidAmount ≠ before.order.paidAmount ∨ after.order.status ≠ before.order.status
-- What a payment to a market promises, of the store it leaves.
structure Allocates (lookups : Lookups) (reads : PayableReads) (marketId : Nat) (amount : Int) (before after : OrderStore) : Prop where
  accepted : Accepted lookups (paymentWrites (findMarketPayableOrders reads before.table marketId) amount) before
  booked : ((payableOrders before.table marketId).map fun entry =>
    ((after.table.row entry.1).map (·.order.paidAmount)).getD 0 - entry.2.order.paidAmount).sum =
      min amount (unpaidAll (payableOrders before.table marketId))
  single : ∀ first ∈ payableOrders before.table marketId,∀ second ∈ payableOrders before.table marketId,∀ left right,
    after.table.row first.1 = some left → after.table.row second.1 = some right → Changed first.2 left → Changed second.2 right →
    left.order.status = .partlyPaid → right.order.status = .partlyPaid → first.1 = second.1
  settled : ∀ entry ∈ payableOrders before.table marketId,∀ row,after.table.row entry.1 = some row →
    (row.order.status = .paid ↔ unpaid row.order = 0)
  oldest : ∀ entry ∈ payableOrders before.table marketId,∀ row,after.table.row entry.1 = some row → Changed entry.2 row →
    ∀ older ∈ payableOrders before.table marketId,older.2.order.createdAt < entry.2.order.createdAt →
    ∀ current,after.table.row older.1 = some current → unpaid current.order ≤ 0

-- The beginning of the queue that the payment reaches.
def reached : Int → Table OrderRow → Table OrderRow
  | _,[] => []
  | payment,entry :: rest => if payment ≤ 0 then [] else entry :: reached (payment - outstanding entry.2.order) rest
-- The payment does not run out inside a SOLD order.
def EndsWhole : Int → Table OrderRow → Prop
  | _,[] => True
  | payment,entry :: rest => payment ≤ 0 ∨
      if payment < outstanding entry.2.order then entry.2.order.status = .partlyPaid
      else EndsWhole (payment - outstanding entry.2.order) rest

-- Where the pages, their order and the status machine let the payment do what it promises.
structure Allocable (marketId : Nat) (amount : Int) (table : Table OrderRow) (queue : Table OrderRow) : Prop where
  whole : EndsWhole amount queue
  used : unpaidAll (reached amount queue) = min amount (unpaidAll (payableOrders table marketId)) ∨
    ∃ first,reached amount queue = [first] ∧ first.2.order.status = .partlyPaid ∧ amount < unpaid first.2.order ∧
      amount ≤ unpaidAll (payableOrders table marketId)
  covered : ∀ entry ∈ payableOrders table marketId,entry ∉ reached amount queue → unpaid entry.2.order ≠ 0
  oldest : ∀ entry ∈ reached amount queue,∀ older ∈ payableOrders table marketId,older ∉ reached amount queue →
    older.2.order.createdAt < entry.2.order.createdAt → unpaid older.2.order ≤ 0

-- The writes of a payment, order by order of the queue.
def fullWrite (entry : Nat × OrderRow) : PaymentWrite := ⟨entry.1,entry.2.order.toBePaid,.paid⟩
def partWrite (payment : Int) (entry : Nat × OrderRow) : PaymentWrite := ⟨entry.1,entry.2.order.paidAmount + payment,.partlyPaid⟩
def allot : Int → Table OrderRow → List PaymentWrite
  | _,[] => []
  | payment,entry :: rest =>
    if payment ≤ 0 then []
    else if payment < outstanding entry.2.order then [partWrite payment entry]
    else fullWrite entry :: allot (payment - outstanding entry.2.order) rest

theorem outstanding_sold {order : Order} (sold : order.status = .sold) : outstanding order = order.toBePaid := by
  rw [outstanding,if_neg (by rw [sold]; decide)]
theorem outstanding_partly {order : Order} (partly : order.status = .partlyPaid) : outstanding order = unpaid order := by
  rw [outstanding,if_pos partly,unpaid]

section Allotment
variable {queue orders : Table OrderRow} {payment : Int}

theorem allot_nothing (queue : Table OrderRow) (none : payment ≤ 0) : allot payment queue = [] := by
  cases queue with
  | nil => rfl
  | cons entry rest => exact if_pos none
theorem reached_nothing (queue : Table OrderRow) (none : payment ≤ 0) : reached payment queue = [] := by
  cases queue with
  | nil => rfl
  | cons entry rest => exact if_pos none
theorem reached_front (payment : Int) (queue : Table OrderRow) : reached payment queue <+: queue := by
  induction queue generalizing payment with
  | nil => exact List.prefix_rfl
  | cons entry rest ih =>
    unfold reached
    split
    · exact List.nil_prefix
    · exact (List.prefix_cons_inj _).mpr (ih _)
theorem allot_ids (payment : Int) (queue : Table OrderRow) : (allot payment queue).map (·.id) = (reached payment queue).map (·.1) := by
  induction queue generalizing payment with
  | nil => rfl
  | cons entry rest ih =>
    unfold allot reached
    split
    · rfl
    split
    · rw [reached_nothing rest (by omega)]
      rfl
    · simp only [List.map_cons,ih]
      rfl

theorem paySold_allot (sold : ∀ entry ∈ queue,entry.2.order.status = .sold) : paySold payment queue = allot payment queue := by
  induction queue generalizing payment with
  | nil => rfl
  | cons entry rest ih =>
    obtain ⟨id,row⟩ := entry
    have cost : outstanding row.order = row.order.toBePaid := outstanding_sold (sold (id,row) List.mem_cons_self)
    have tail : ∀ payment,paySold payment rest = allot payment rest := fun payment => ih fun other member => sold other (.tail _ member)
    unfold paySold allot
    simp only [cost]
    split
    · rfl
    · by_cases short : payment < row.order.toBePaid
      · rw [if_neg (by omega),if_pos short,tail,allot_nothing rest (Int.le_refl 0)]
        rfl
      · rw [if_pos (by omega),if_neg short,tail]
        rfl
theorem paymentWrites_allot (orders : Table OrderRow) (amount : Int) : paymentWrites orders amount = allot amount (payableQueue orders) := by
  have sold : ∀ entry ∈ soldOrders orders,entry.2.order.status = .sold := fun entry member => (soldOrders_parts member).2
  unfold paymentWrites payableQueue
  split
  · rename_i none
    exact (allot_nothing _ none).symm
  rename_i positive
  cases first : firstPartly orders with
  | none => exact paySold_allot sold
  | some entry =>
    obtain ⟨id,row⟩ := entry
    have cost : outstanding row.order = row.order.toBePaid - row.order.paidAmount := outstanding_partly (firstPartly_parts first).2
    simp only [Option.toList_some,List.cons_append,List.nil_append,allot,if_neg positive,payPartly,cost]
    by_cases short : amount < row.order.toBePaid - row.order.paidAmount
    · simp only [if_pos short,if_neg (show ¬amount ≥ row.order.toBePaid - row.order.paidAmount by omega)]
      rw [paySold_allot sold,allot_nothing _ (Int.le_refl 0)]
      rfl
    · simp only [if_neg short,if_pos (show amount ≥ row.order.toBePaid - row.order.paidAmount by omega)]
      rw [paySold_allot sold]
      rfl

-- Only the first order of the queue may be PARTLY_PAID.
theorem payableQueue_tail (orders : Table OrderRow) : ∀ entry ∈ (payableQueue orders).tail,entry.2.order.status = .sold := by
  have sold : ∀ entry ∈ soldOrders orders,entry.2.order.status = .sold := fun entry member => (soldOrders_parts member).2
  unfold payableQueue
  cases firstPartly orders with
  | none => exact fun entry member => sold entry (List.mem_of_mem_tail member)
  | some entry => exact sold

theorem sold_allot (sold : ∀ entry ∈ queue,entry.2.order.status = .sold) (whole : EndsWhole payment queue) :
    allot payment queue = (reached payment queue).map fullWrite := by
  induction queue generalizing payment with
  | nil => rfl
  | cons entry rest ih =>
    unfold allot reached
    unfold EndsWhole at whole
    by_cases none : payment ≤ 0
    · simp [none]
    · rcases whole with zero | whole
      · exact absurd zero none
      have own := sold entry List.mem_cons_self
      split at whole
      · rw [own] at whole
        cases whole
      · rename_i covers
        rw [if_neg none,if_neg none,if_neg covers,ih (fun other member => sold other (.tail _ member)) whole]
        rfl
-- A payment that ends whole covers what it reaches, or stays inside the PARTLY_PAID order it starts with.
theorem allot_cases (tail : ∀ entry ∈ queue.tail,entry.2.order.status = .sold) (whole : EndsWhole payment queue) :
    allot payment queue = (reached payment queue).map fullWrite ∧
      (∀ first,reached payment queue = [first] → first.2.order.status = .partlyPaid → unpaid first.2.order ≤ payment) ∨
    ∃ first,reached payment queue = [first] ∧ first.2.order.status = .partlyPaid ∧ 0 < payment ∧ payment < unpaid first.2.order ∧
      allot payment queue = [partWrite payment first] := by
  cases queue with
  | nil =>
    refine .inl ⟨rfl,fun first alone => ?_⟩
    simp [reached] at alone
  | cons entry rest =>
    unfold allot reached
    unfold EndsWhole at whole
    by_cases none : payment ≤ 0
    · simp [none]
    rcases whole with zero | whole
    · exact absurd zero none
    rw [if_neg none,if_neg none]
    split at whole
    · rename_i short
      refine .inr ⟨entry,?_,whole,by omega,outstanding_partly whole ▸ short,if_pos short⟩
      rw [reached_nothing rest (by omega)]
    · rename_i covers
      have later : allot (payment - outstanding entry.2.order) rest = _ := sold_allot tail whole
      rw [if_neg covers,later]
      refine .inl ⟨rfl,fun first alone partly => ?_⟩
      cases (List.cons.inj alone).1
      rw [outstanding_partly partly] at covers
      omega
-- Where every status asked for is allowed, it ends whole.
theorem allowed_whole (asked : ∀ entry ∈ queue,∀ write ∈ allot payment queue,write.id = entry.1 →
      isValidStatusTransition entry.2.order.status write.status = true)
    (distinct : (queue.map (·.1)).Nodup) (payable : ∀ entry ∈ queue,entry.2.order.status = .sold ∨ entry.2.order.status = .partlyPaid) :
    EndsWhole payment queue := by
  induction queue generalizing payment with
  | nil => trivial
  | cons entry rest ih =>
    unfold EndsWhole
    by_cases none : payment ≤ 0
    · exact .inl none
    refine .inr ?_
    have writes := asked entry List.mem_cons_self
    unfold allot at asked writes
    rw [if_neg none] at writes
    obtain ⟨fresh,apart⟩ := List.nodup_cons.mp distinct
    split
    · rename_i short
      rw [if_pos short] at writes
      have valid := writes _ List.mem_cons_self rfl
      rcases payable entry List.mem_cons_self with sold | partly
      · rw [sold] at valid
        cases valid
      · exact partly
    · rename_i covers
      refine ih (fun other inside write member own => ?_) apart fun other inside => payable other (.tail _ inside)
      apply asked other (.tail _ inside) write _ own
      rw [if_neg none,if_neg covers]
      exact .tail _ member

end Allotment

section Sending
variable {store : OrderStore} {lookups : Lookups}

theorem findById_perform (keyed : store.table.Keyed) {id : Nat} {row : OrderRow} (here : store.table.row id = some row)
    (live : liveOrder id id row = true) (next : OrderRow → Request) : (findById id next).perform store = (next row).perform store := by
  have member : (id,row) ∈ store.table.select (liveOrder id) := List.mem_filter.mpr ⟨(row_exact keyed).mpr here,live⟩
  simp only [findById,Prog.perform]
  cases selected : store.table.select (liveOrder id) with
  | nil =>
    rw [selected] at member
    cases member
  | cons entry rest =>
    obtain ⟨key,found⟩ := entry
    have first : (key,found) ∈ store.table.select (liveOrder id) := by simp [selected]
    obtain ⟨stored,chosen⟩ := select_row keyed first
    simp only [liveOrder,Bool.and_eq_true,beq_iff_eq] at chosen
    rw [chosen.1.1,here] at stored
    cases stored
    rfl

-- One update of a payment on a live order is made exactly when the status machine allows it.
theorem write_performs (keyed : store.table.Keyed) {write : PaymentWrite} {row : OrderRow} (here : store.table.row write.id = some row)
    (live : liveOrder write.id write.id row = true) :
    (∃ answer next,(updateFull lookups none write.id write.dto).perform store = (some (.ok answer),next)) ↔
      isValidStatusTransition row.order.status write.status = true := by
  constructor
  · rintro ⟨answer,next,performed⟩
    obtain ⟨stored,updated,found,passed,-⟩ := updateFull_performs keyed rfl ⟨answer,performed⟩
    cases here.symm.trans found
    obtain ⟨rfl,valid⟩ := updateOrder_parts passed
    simpa [PaymentWrite.dto] using valid
  · intro valid
    have commercial : assertCommercialFieldsEditable row write.dto = .ok () := by
      unfold assertCommercialFieldsEditable
      split
      · rfl
      · rfl
    have delivery : assertDeliveryDetailsEditable lookups write.id row.order write.dto = .ok () := rfl
    have update : updateOrder lookups none write.dto row.order = .ok (updatedOrder lookups none write.dto row.order) := by
      refine if_pos ?_
      simpa [PaymentWrite.dto] using valid
    have passed : editOrder lookups none write.id write.dto row = .ok (updatedOrder lookups none write.dto row.order) := by
      rw [editOrder,commercial,delivery]
      exact update
    unfold updateFull
    rw [findById_perform keyed here live,passed]
    simp only [saveUpdate,Prog.perform,PaymentWrite.dto]
    rw [if_pos]
    · exact ⟨_,_,rfl⟩
    · rw [List.all_map]
      refine List.all_eq_true.mpr fun event member => ?_
      rw [Function.comp_apply,applyWrites_row,written_update,if_pos rfl,here]
      rfl

-- What an accepted write leaves of its order.
structure Booked (write : PaymentWrite) (before after : OrderRow) : Prop where
  paidAmount : after.order.paidAmount = write.paidAmount
  status : after.order.status = write.status
  toBePaid : after.order.toBePaid = before.order.toBePaid

theorem write_rows (keyed : store.table.Keyed) {write : PaymentWrite}
    (performed : (updateFull lookups none write.id write.dto).perform store = (some (.ok answer),next)) :
    (∀ key,key ≠ write.id → next.table.row key = store.table.row key) ∧
    ∀ row,store.table.row write.id = some row → ∃ booked,next.table.row write.id = some booked ∧ Booked write row booked := by
  obtain ⟨stored,updated,found,passed,table⟩ := updateFull_performs keyed rfl ⟨answer,performed⟩
  have assigned := (updateOrder_parts passed).1
  rw [table]
  constructor
  · intro key apart
    rw [applyWrites_row,written_update,if_neg (Ne.symm apart),written_nil]
  · intro row here
    cases here.symm.trans found
    rw [applyWrites_row,written_update,if_pos rfl,here,written_nil]
    refine ⟨_,rfl,?_⟩
    constructor
    · simp [saveRow,assigned,PaymentWrite.dto]
    · simp [saveRow,assigned,PaymentWrite.dto]
    · simp [saveRow,assigned,PaymentWrite.dto]

variable {writes : List PaymentWrite}

theorem accepted_exact (keyed : store.table.Keyed) (distinct : (writes.map (·.id)).Nodup)
    (live : ∀ write ∈ writes,∃ row,store.table.row write.id = some row ∧ liveOrder write.id write.id row = true) :
    Accepted lookups writes store ↔ ∀ write ∈ writes,∀ row,store.table.row write.id = some row →
      isValidStatusTransition row.order.status write.status = true := by
  induction writes generalizing store with
  | nil => simp [Accepted]
  | cons write rest ih =>
    obtain ⟨fresh,apart⟩ := List.nodup_cons.mp distinct
    obtain ⟨row,here,alive⟩ := live write List.mem_cons_self
    have away : ∀ other ∈ rest,other.id ≠ write.id := fun other member same => fresh (List.mem_map.mpr ⟨other,member,same⟩)
    have later : ∀ answer next,(updateFull lookups none write.id write.dto).perform store = (some (.ok answer),next) →
        (Accepted lookups rest next ↔ ∀ other ∈ rest,∀ row,store.table.row other.id = some row →
          isValidStatusTransition row.order.status other.status = true) := by
      intro answer next performed
      have still := perform_keyed (updateFull lookups none write.id write.dto) keyed
      rw [performed] at still
      have same := (write_rows keyed performed).1
      rw [ih still apart]
      · refine forall₂_congr fun other member => ?_
        rw [same other.id (away other member)]
      · intro other member
        rw [same other.id (away other member)]
        exact live other (.tail _ member)
    constructor
    · rintro ⟨answer,next,performed,accepted⟩ other member stored found
      rcases List.mem_cons.mp member with rfl | inRest
      · cases here.symm.trans found
        exact (write_performs keyed here alive).mp ⟨answer,next,performed⟩
      · exact (later answer next performed).mp accepted other inRest stored found
    · intro valid
      obtain ⟨answer,next,performed⟩ := (write_performs keyed here alive).mpr (valid write List.mem_cons_self row here)
      exact ⟨answer,next,performed,(later answer next performed).mpr fun other member => valid other (.tail _ member)⟩

theorem accepted_rows (keyed : store.table.Keyed) (distinct : (writes.map (·.id)).Nodup) (accepted : Accepted lookups writes store) :
    (∀ key,key ∉ writes.map (·.id) → (sendWrites lookups writes store).table.row key = store.table.row key) ∧
    ∀ write ∈ writes,∀ row,store.table.row write.id = some row →
      ∃ booked,(sendWrites lookups writes store).table.row write.id = some booked ∧ Booked write row booked := by
  induction writes generalizing store with
  | nil => exact ⟨fun _ _ => rfl,nofun⟩
  | cons write rest ih =>
    obtain ⟨fresh,apart⟩ := List.nodup_cons.mp distinct
    obtain ⟨answer,next,performed,accepted⟩ := accepted
    have still := perform_keyed (updateFull lookups none write.id write.dto) keyed
    rw [performed] at still
    obtain ⟨same,own⟩ := write_rows keyed performed
    obtain ⟨elsewhere,booked⟩ := ih still apart accepted
    unfold sendWrites
    rw [performed]
    constructor
    · intro key absent
      have other : key ≠ write.id := fun equal => absent (equal ▸ List.mem_cons_self)
      rw [elsewhere key (fun inRest => absent (.tail _ inRest)),same key other]
    · intro other member row here
      rcases List.mem_cons.mp member with rfl | inRest
      · obtain ⟨first,there,facts⟩ := own row here
        exact ⟨first,(elsewhere other.id fresh).trans there,facts⟩
      · have away : other.id ≠ write.id := fun equal => fresh (List.mem_map.mpr ⟨other,inRest,equal⟩)
        exact booked other inRest row ((same other.id away).trans here)

end Sending

-- A sum over a list is that over a part of it where the rest adds nothing.
theorem sum_part {α : Type} {items part : List α} {value : α → Int} (distinct : items.Nodup) (once : part.Nodup) (inside : ∀ item ∈ part,item ∈ items)
    (rest : ∀ item ∈ items,item ∉ part → value item = 0) : (items.map value).sum = (part.map value).sum := by
  obtain ⟨front,same,sub⟩ := List.subperm_of_subset once inside
  obtain ⟨others,split⟩ := sub.exists_perm_append
  have total : items.Perm (part ++ others) := split.trans (same.append_right others)
  have apart : ∀ item ∈ others,value item = 0 := by
    intro item member
    refine rest item (total.mem_iff.mpr (List.mem_append_right _ member)) fun own => ?_
    exact (List.nodup_append.mp (total.nodup_iff.mp distinct)).2.2 item own item member rfl
  have none : (others.map value).sum = 0 := List.sum_eq_zero fun amount member => by
    obtain ⟨item,inOthers,rfl⟩ := List.mem_map.mp member
    exact apart item inOthers
  rw [(total.map value).sum_eq,List.map_append,List.sum_append,none,Int.add_zero]

section Market
variable {table : Table OrderRow} {marketId : Nat} {reads : PayableReads} {amount : Int}

theorem payable_row (keyed : table.Keyed) {entry : Nat × OrderRow} (member : entry ∈ payableOrders table marketId) :
    table.row entry.1 = some entry.2 ∧ liveOrder entry.1 entry.1 entry.2 = true ∧
      (entry.2.order.status = .sold ∨ entry.2.order.status = .partlyPaid) := by
  obtain ⟨stored,chosen⟩ := select_row keyed member
  simp only [payableOrder,Bool.and_eq_true,Bool.or_eq_true,beq_iff_eq] at chosen
  refine ⟨stored,?_,chosen.2⟩
  simp only [liveOrder,beq_self_eq_true,Bool.true_and,Bool.and_eq_true]
  exact chosen.1.1
theorem queue_payable {entry : Nat × OrderRow} (member : entry ∈ payableQueue (findMarketPayableOrders reads table marketId)) :
    entry ∈ payableOrders table marketId := by
  have page : ∀ status,(status = .sold ∨ status = .partlyPaid) → entry ∈ findAll table marketId status → entry ∈ payableOrders table marketId := by
    intro status which found
    obtain ⟨stored,chosen⟩ := List.mem_filter.mp (List.mem_mergeSort.mp (List.mem_of_mem_take found))
    refine List.mem_filter.mpr ⟨stored,?_⟩
    simp only [payableOrder,Bool.and_eq_true,Bool.or_eq_true,beq_iff_eq] at chosen ⊢
    exact ⟨chosen.1,chosen.2 ▸ which⟩
  have listed : entry ∈ findMarketPayableOrders reads table marketId := by
    rcases List.mem_append.mp member with first | sold
    · exact (firstPartly_parts (Option.mem_toList.mp first)).1
    · exact (soldOrders_parts sold).1
  rcases List.mem_append.mp listed with partly | sold
  · split at partly
    · exact page _ (.inr rfl) partly
    · cases partly
  · split at sold
    · exact page _ (.inl rfl) sold
    · cases sold

-- What a payment leaves of the orders it reaches and of the others.
structure Reaches (marketId : Nat) (table : Table OrderRow) (front : Table OrderRow) (after : OrderStore) (gain : Nat × OrderRow → Int) : Prop where
  own : ∀ entry ∈ front,∃ row,after.table.row entry.1 = some row ∧ Changed entry.2 row ∧ (row.order.status = .paid ↔ unpaid row.order = 0) ∧
    row.order.paidAmount = entry.2.order.paidAmount + gain entry ∧ (front = [entry] ∨ row.order.status = .paid)
  others : ∀ entry ∈ payableOrders table marketId,entry ∉ front → after.table.row entry.1 = some entry.2

section Reaching
variable {before after : OrderStore} {front : Table OrderRow} {gain : Nat × OrderRow → Int}

theorem unreached_unchanged (reaches : Reaches marketId before.table front after gain) {entry : Nat × OrderRow}
    (member : entry ∈ payableOrders before.table marketId) {row : OrderRow} (here : after.table.row entry.1 = some row)
    (changed : Changed entry.2 row) : entry ∈ front := by
  by_contra absent
  cases (reaches.others entry member absent).symm.trans here
  rcases changed with amount | status
  · exact amount rfl
  · exact status rfl
theorem reaches_booked (keyed : before.table.Keyed) (once : (front.map (·.1)).Nodup) (inside : ∀ entry ∈ front,entry ∈ payableOrders before.table marketId)
    (reaches : Reaches marketId before.table front after gain) :
    ((payableOrders before.table marketId).map fun entry =>
      ((after.table.row entry.1).map (·.order.paidAmount)).getD 0 - entry.2.order.paidAmount).sum = (front.map gain).sum := by
  have distinct : ((payableOrders before.table marketId).map (·.1)).Nodup := keyed.sublist (List.filter_sublist.map _)
  rw [sum_part distinct.of_map once.of_map inside]
  · congr 1
    refine List.map_congr_left fun entry member => ?_
    obtain ⟨row,here,-,-,paid,-⟩ := reaches.own entry member
    rw [here,Option.map_some,Option.getD_some,paid]
    omega
  · intro entry member absent
    rw [reaches.others entry member absent,Option.map_some,Option.getD_some]
    omega
theorem reaches_exact (keyed : before.table.Keyed) (once : (front.map (·.1)).Nodup) (inside : ∀ entry ∈ front,entry ∈ payableOrders before.table marketId)
    (accepted : Accepted lookups (paymentWrites (findMarketPayableOrders reads before.table marketId) amount) before)
    (reaches : Reaches marketId before.table front after gain) :
    Allocates lookups reads marketId amount before after ↔
      (front.map gain).sum = min amount (unpaidAll (payableOrders before.table marketId)) ∧
      (∀ entry ∈ payableOrders before.table marketId,entry ∉ front → unpaid entry.2.order ≠ 0) ∧
      ∀ entry ∈ front,∀ older ∈ payableOrders before.table marketId,older ∉ front →
        older.2.order.createdAt < entry.2.order.createdAt → unpaid older.2.order ≤ 0 := by
  have booked := reaches_booked keyed once inside reaches
  constructor
  · intro law
    refine ⟨booked.symm.trans law.booked,?_,?_⟩
    · intro entry member absent free
      have paid := (law.settled entry member entry.2 (reaches.others entry member absent)).mpr free
      rcases (payable_row keyed member).2.2 with sold | partly
      · rw [sold] at paid
        cases paid
      · rw [partly] at paid
        cases paid
    · intro entry member older listed absent before
      obtain ⟨row,here,changed,-⟩ := reaches.own entry member
      exact law.oldest entry (inside entry member) row here changed older listed before older.2 (reaches.others older listed absent)
  · rintro ⟨used,covered,oldest⟩
    refine ⟨accepted,booked.trans used,?_,?_,?_⟩
    · intro first firstIn second secondIn left right here there changed also partly _
      have firstReached := unreached_unchanged reaches firstIn here changed
      have secondReached := unreached_unchanged reaches secondIn there also
      obtain ⟨row,found,-,-,-,alone | paid⟩ := reaches.own first firstReached
      · rw [alone] at secondReached
        rw [List.mem_singleton.mp secondReached]
      · cases found.symm.trans here
        rw [paid] at partly
        cases partly
    · intro entry member row here
      by_cases own : entry ∈ front
      · obtain ⟨found,stored,-,settled,-⟩ := reaches.own entry own
        cases stored.symm.trans here
        exact settled
      · cases (reaches.others entry member own).symm.trans here
        refine iff_of_false ?_ (covered entry member own)
        rcases (payable_row keyed member).2.2 with sold | partly
        · rw [sold]
          decide
        · rw [partly]
          decide
    · intro entry member row here changed older listed before current there
      have own := unreached_unchanged reaches member here changed
      by_cases also : older ∈ front
      · obtain ⟨found,stored,-,settled,-,alone | paid⟩ := reaches.own older also
        · rw [alone] at own
          rw [List.mem_singleton.mp own] at before
          omega
        · cases stored.symm.trans there
          exact Int.le_of_eq (settled.mp paid)
      · cases (reaches.others older listed also).symm.trans there
        exact oldest entry own older listed also before

end Reaching

section Payment
variable {before : OrderStore} {lookups : Lookups}

-- A payment of accepted writes, each on an order of its own.
theorem pays_reaches (keyed : before.table.Keyed) {writes : List PaymentWrite} {front : Table OrderRow}
    (ids : writes.map (·.id) = front.map (·.1)) (once : (front.map (·.1)).Nodup)
    (inside : ∀ entry ∈ front,entry ∈ payableOrders before.table marketId) (accepted : Accepted lookups writes before)
    (own : ∀ entry ∈ front,∃ write ∈ writes,write.id = entry.1 ∧ ∀ row,Booked write entry.2 row → Changed entry.2 row ∧
      (row.order.status = .paid ↔ unpaid row.order = 0) ∧ row.order.paidAmount = entry.2.order.paidAmount + gain entry ∧
      (front = [entry] ∨ row.order.status = .paid)) :
    Reaches marketId before.table front (sendWrites lookups writes before) gain := by
  obtain ⟨same,booked⟩ := accepted_rows keyed (ids ▸ once) accepted
  constructor
  · intro entry member
    obtain ⟨write,listed,here,facts⟩ := own entry member
    obtain ⟨row,stored,books⟩ := booked write listed entry.2 (here ▸ (payable_row keyed (inside entry member)).1)
    exact ⟨row,here ▸ stored,facts row books⟩
  · intro entry member absent
    refine (same entry.1 fun listed => absent ?_).trans (payable_row keyed member).1
    rw [ids] at listed
    obtain ⟨other,inFront,equal⟩ := List.mem_map.mp listed
    have stored := (payable_row keyed (inside other inFront)).1
    rw [equal,(payable_row keyed member).1] at stored
    rwa [show entry = other from Prod.ext equal.symm (Option.some.inj stored)]

theorem paid_full {entry : Nat × OrderRow} {row : OrderRow} (payable : entry.2.order.status = .sold ∨ entry.2.order.status = .partlyPaid)
    (books : Booked (fullWrite entry) entry.2 row) : Changed entry.2 row ∧ (row.order.status = .paid ↔ unpaid row.order = 0) ∧
      row.order.paidAmount = entry.2.order.paidAmount + unpaid entry.2.order ∧ row.order.status = .paid := by
  obtain ⟨paid,status,whole⟩ := books
  simp only [fullWrite] at paid status
  refine ⟨.inr ?_,iff_of_true status ?_,?_,status⟩
  · rw [status]
    rcases payable with sold | partly
    · rw [sold]
      decide
    · rw [partly]
      decide
  · rw [unpaid,paid,whole]
    omega
  · rw [paid,unpaid]
    omega
theorem paid_part {entry : Nat × OrderRow} {row : OrderRow} (positive : 0 < amount) (short : amount < unpaid entry.2.order)
    (books : Booked (partWrite amount entry) entry.2 row) : Changed entry.2 row ∧ (row.order.status = .paid ↔ unpaid row.order = 0) ∧
      row.order.paidAmount = entry.2.order.paidAmount + amount := by
  obtain ⟨paid,status,whole⟩ := books
  simp only [partWrite] at paid status
  refine ⟨.inl (by omega),iff_of_false ?_ ?_,paid⟩
  · rw [status]
    decide
  · rw [unpaid,paid,whole]
    rw [unpaid] at short
    omega

theorem queue_allowed (keyed : before.table.Keyed) {queue : Table OrderRow} (distinct : (queue.map (·.1)).Nodup)
    (inside : ∀ entry ∈ queue,entry ∈ payableOrders before.table marketId) (tail : ∀ entry ∈ queue.tail,entry.2.order.status = .sold) :
    Accepted lookups (allot amount queue) before ↔ EndsWhole amount queue := by
  have once : ((allot amount queue).map (·.id)).Nodup := by
    rw [allot_ids]
    exact distinct.sublist ((reached_front amount queue).sublist.map _)
  have stored : ∀ write ∈ allot amount queue,∃ entry ∈ queue,entry.1 = write.id := by
    intro write member
    have listed : write.id ∈ (allot amount queue).map (·.id) := List.mem_map_of_mem member
    rw [allot_ids] at listed
    obtain ⟨entry,inFront,same⟩ := List.mem_map.mp listed
    exact ⟨entry,(reached_front amount queue).subset inFront,same⟩
  have live : ∀ write ∈ allot amount queue,∃ row,before.table.row write.id = some row ∧ liveOrder write.id write.id row = true := by
    intro write member
    obtain ⟨entry,inQueue,same⟩ := stored write member
    obtain ⟨here,alive,-⟩ := payable_row keyed (inside entry inQueue)
    exact ⟨entry.2,same ▸ here,same ▸ alive⟩
  rw [accepted_exact keyed once live]
  constructor
  · intro valid
    refine allowed_whole (fun entry inQueue write member same => ?_) distinct fun entry inQueue => (payable_row keyed (inside entry inQueue)).2.2
    exact valid write member entry.2 (same ▸ (payable_row keyed (inside entry inQueue)).1)
  · intro whole write member row here
    rcases allot_cases tail whole with ⟨full,-⟩ | ⟨first,alone,partly,-,-,part⟩
    · rw [full] at member
      obtain ⟨entry,inFront,rfl⟩ := List.mem_map.mp member
      obtain ⟨found,-,payable⟩ := payable_row keyed (inside entry ((reached_front amount queue).subset inFront))
      cases found.symm.trans here
      rcases payable with sold | partly
      · rw [sold]
        rfl
      · rw [partly]
        rfl
    · rw [part] at member
      cases List.mem_singleton.mp member
      have inQueue : first ∈ queue := (reached_front amount queue).subset (alone ▸ List.mem_singleton_self first)
      cases (payable_row keyed (inside first inQueue)).1.symm.trans here
      rw [partly]
      rfl

theorem queue_allocates (keyed : before.table.Keyed) {queue : Table OrderRow} (distinct : (queue.map (·.1)).Nodup)
    (inside : ∀ entry ∈ queue,entry ∈ payableOrders before.table marketId) (tail : ∀ entry ∈ queue.tail,entry.2.order.status = .sold)
    (writes : paymentWrites (findMarketPayableOrders reads before.table marketId) amount = allot amount queue) :
    Allocates lookups reads marketId amount before (sendWrites lookups (allot amount queue) before) ↔
      Allocable marketId amount before.table queue := by
  have allowed : Accepted lookups (allot amount queue) before ↔ EndsWhole amount queue := queue_allowed keyed distinct inside tail
  by_cases whole : EndsWhole amount queue
  · have accepted := allowed.mpr whole
    have ids := allot_ids amount queue
    have front := reached_front amount queue
    have once := distinct.sublist (front.sublist.map _)
    have payable := fun entry member => inside entry (front.subset member)
    rcases allot_cases tail whole with ⟨full,covers⟩ | ⟨first,alone,partly,positive,short,part⟩
    · have reaches : Reaches marketId before.table (reached amount queue) (sendWrites lookups (allot amount queue) before)
          fun entry => unpaid entry.2.order := by
        refine pays_reaches keyed ids once payable accepted fun entry member => ⟨fullWrite entry,?_,rfl,fun row books => ?_⟩
        · rw [full]
          exact List.mem_map_of_mem member
        · obtain ⟨changed,settled,paid,status⟩ := paid_full (payable_row keyed (payable entry member)).2.2 books
          exact ⟨changed,settled,paid,.inr status⟩
      rw [reaches_exact keyed once payable (writes ▸ accepted) reaches]
      constructor
      · rintro ⟨used,covered,oldest⟩
        exact ⟨whole,.inl used,covered,oldest⟩
      · rintro ⟨-,used | ⟨first,alone,partly,short,-⟩,covered,oldest⟩
        · exact ⟨used,covered,oldest⟩
        · exact absurd (covers first alone partly) (by omega)
    · have reaches : Reaches marketId before.table (reached amount queue) (sendWrites lookups (allot amount queue) before)
          fun _ => amount := by
        refine pays_reaches keyed ids once payable accepted fun entry member => ?_
        rw [alone] at member
        cases List.mem_singleton.mp member
        refine ⟨partWrite amount first,by simp [part],rfl,fun row books => ?_⟩
        obtain ⟨changed,settled,paid⟩ := paid_part positive short books
        exact ⟨changed,settled,paid,.inl alone⟩
      have sum : ((reached amount queue).map fun _ => amount).sum = amount := by simp [alone]
      rw [reaches_exact keyed once payable (writes ▸ accepted) reaches,sum]
      constructor
      · rintro ⟨used,covered,oldest⟩
        exact ⟨whole,.inr ⟨first,alone,partly,short,by omega⟩,covered,oldest⟩
      · rintro ⟨-,used | ⟨_,-,-,-,most⟩,covered,oldest⟩
        · rw [alone] at used
          simp only [unpaidAll,List.map_cons,List.map_nil,List.sum_cons,List.sum_nil,Int.add_zero] at used
          omega
        · exact ⟨by omega,covered,oldest⟩
  · refine iff_of_false (fun law => whole (allowed.mp ?_)) fun allocable => whole allocable.whole
    exact writes ▸ law.accepted

end Payment

end Market

-- Orders of market 1 that owe 70 000 soum each, and its payments.
def owingOrder (createdAt : Nat) : OrderRow := ⟨{sampleOrder with status:=.sold,toBePaid:=7000000,createdAt:=createdAt},[],none⟩
def oneOwing : OrderStore := ⟨[(11,owingOrder 0)],[],12⟩
def twoOwing : OrderStore := ⟨[(12,owingOrder 1),(11,owingOrder 0)],[],13⟩
def paidTo (store : OrderStore) (amount : Int) : OrderStore := applyPaymentToOrders (sampleLookups 3000000 1000) ⟨true,true⟩ 1 amount store

theorem twoOwing_paid : paidTo twoOwing 7000000 = sendWrites (sampleLookups 3000000 1000) [⟨12,7000000,.paid⟩] twoOwing := by
  have sold : findAll twoOwing.table 1 .sold = twoOwing.table := by
    unfold findAll
    rw [List.mergeSort_of_pairwise (by decide)]
    rfl
  have partly : findAll twoOwing.table 1 .partlyPaid = [] := by
    unfold findAll
    rw [List.mergeSort_of_pairwise (by decide)]
    rfl
  have writes : paymentWrites (findMarketPayableOrders ⟨true,true⟩ twoOwing.table 1) 7000000 = [⟨12,7000000,.paid⟩] := by
    unfold findMarketPayableOrders
    rw [sold,partly]
    rfl
  rw [paidTo,applyPaymentToOrders,writes]

end Elchi.Orders
