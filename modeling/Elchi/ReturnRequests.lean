import Elchi.PostAgreement
import Elchi.PostWorlds
import Elchi.OrderEpochs
namespace Elchi.Logistics
open RowLock Orders Programs

-- What the list of return requests shows when nothing fails.
def World.returnListed (w : World) (id : Nat) : Prop :=
  ∃ groups,(w.run getReturnRequests []).2.1 = .ok groups ∧ ∃ group ∈ groups,id ∈ group.2.map (·.1)

def flaggedWaiting (_ : Nat) (order : Order) : Bool := order.status == .waiting && order.returnRequested == true
def postCourier (posts : Table Post) (entry : Nat × Order) : Option Nat := (entry.2.postId.bind (Table.row posts)).map (·.courierId)
theorem returnListed_exact (w : World) (id : Nat) : w.returnListed id ↔ id ∈ (w.list flaggedWaiting).map (·.1) := by
  have shown : ∀ posts : Table Post,
      (∃ group ∈ groupBy (postCourier posts) (w.list flaggedWaiting),id ∈ group.2.map (·.1)) ↔ id ∈ (w.list flaggedWaiting).map (·.1) := by
    intro posts
    constructor
    · rintro ⟨group,member,inside⟩
      rw [groupBy_parts member] at inside
      exact (List.filter_sublist.map _).subset inside
    · intro member
      obtain ⟨entry,there,rfl⟩ := List.mem_map.mp member
      obtain ⟨group,inside,within⟩ := groupBy_covers (postCourier posts) there
      exact ⟨group,inside,List.mem_map_of_mem within⟩
  have ends : ∃ posts,(w.run getReturnRequests []).2.1 = .ok
      (groupBy (postCourier posts) (w.list flaggedWaiting)) := by
    simp only [World.run,getReturnRequests,findOrders,call,perform,bind,Program.bind,Program.exec,List.headD_nil,World.answer,World.carry,
      findPostsOf]
    split
    · exact ⟨[],rfl⟩
    · exact ⟨_,rfl⟩
  obtain ⟨posts,same⟩ := ends
  rw [← shown posts]
  constructor
  · rintro ⟨groups,got,listed⟩
    cases got.symm.trans same
    exact listed
  · exact fun listed => ⟨_,same,listed⟩
theorem returnListed_waiting {w : World} {id : Nat} (keyed : w.orders.Keyed) (listed : w.returnListed id) :
    ∃ order,w.order id = some order ∧ order.status = .waiting ∧ order.returnRequested = true := by
  obtain ⟨entry,inside,rfl⟩ := List.mem_map.mp ((returnListed_exact w id).mp listed)
  obtain ⟨stored,fits⟩ := mem_list keyed inside
  exact ⟨entry.2,stored,by simpa [flaggedWaiting] using fits⟩

-- Where a request flags an order it is on the road; an order that was flagged before keeps its status.
def Flagging (w after : World) : Prop := ∀ id order,after.orders.row id = some order → order.returnRequested = true →
  order.status = .onTheRoad ∨ ∃ before,w.orders.row id = some before ∧ before.returnRequested = true ∧ before.status = order.status
theorem flagging_steady : Steady Flagging where
  refl := fun w id order stored flagged => .inr ⟨order,stored,flagged,rfl⟩
  trans := by
    intro first second third early late id order stored flagged
    rcases late id order stored flagged with road | ⟨middle,there,marked,same⟩
    · exact .inl road
    · rcases early id middle there marked with road | ⟨before,here,marked,equal⟩
      · exact .inl (same ▸ road)
      · exact .inr ⟨before,here,marked,equal.trans same⟩
abbrev Flags (op : Operation α) : Prop := op.Steps World.answer anyFate (fun w => w.orders.Keyed) Flagging

theorem flags_call {action : Action} (other : action.onOrders = false) : Flags (call action) :=
  steps_call fun w fate keyed _ => ⟨answer_orders w fate other ▸ keyed,fun id order stored flagged => by
    rw [answer_orders w fate other] at stored
    exact .inr ⟨order,stored,flagged,rfl⟩⟩
theorem flags_updateOrder {id : Nat} {dto : UpdateDto} {requesterId : Option Nat}
    (fits : dto.returnRequested = some false ∨ (dto.returnRequested = some true ∧ dto.status = some .onTheRoad) ∨
      (dto.returnRequested = none ∧ dto.status = none)) : Flags (updateOrder id dto requesterId) := by
  refine steps_call fun w fate keyed _ => ?_
  have moved : (w.updateOrder id dto requesterId).1.orders.Keyed ∧ Flagging w (w.updateOrder id dto requesterId).1 := by
    rcases update_cases w id dto requesterId with ⟨e,same⟩ | ⟨order,found,-,same⟩
    · rw [same]
      exact ⟨keyed,flagging_steady.refl w⟩
    · rw [same]
      refine ⟨put_keyed keyed _ _,?_⟩
      intro key after stored flagged
      dsimp only at stored
      rw [row_put] at stored
      split at stored
      · rename_i equal
        cases stored
        rw [saved_returnRequested] at flagged
        rw [saved_status]
        rcases fits with off | ⟨on,road⟩ | ⟨kept,still⟩
        · simp [off] at flagged
        · exact .inl (by simp [road])
        · rw [kept] at flagged
          rw [still]
          exact .inr ⟨order,equal ▸ (order_parts.mp found).1,flagged,rfl⟩
      · exact .inr ⟨after,stored,flagged,rfl⟩
  rcases answer_world w fate (.updateOrder id dto requesterId) with same | ⟨_,same⟩
  · rw [same]
    exact ⟨keyed,flagging_steady.refl w⟩
  · rw [same]
    exact moved

theorem receivePost_flags (requester : Requester) (id : Nat) (orderIds : List Nat) : Flags (receivePost requester id orderIds) := by
  refine steps_bind flagging_steady (flags_call rfl) fun row => steps_bind flagging_steady (steps_found flagging_steady _ _) fun entry => ?_
  refine steps_bind flagging_steady (flags_call rfl) fun allOrders => ?_
  refine steps_bind flagging_steady (steps_scopedBranch flagging_steady (flags_call rfl)) fun scopedBranchId => ?_
  refine steps_bind flagging_steady (steps_require flagging_steady _ _) fun _ => ?_
  refine steps_bind flagging_steady (steps_require flagging_steady _ _) fun _ => ?_
  refine steps_bind flagging_steady (steps_require flagging_steady _ _) fun _ => ?_
  refine steps_bind flagging_steady (steps_forEach flagging_steady (fun orderId => ?_) _) fun _ => ?_
  · split
    · exact steps_onlyIf flagging_steady (steps_tolerate flagging_steady (flags_updateOrder (.inl rfl)))
    · exact steps_done flagging_steady _
  refine steps_bind flagging_steady (steps_forEach flagging_steady (fun entry =>
    steps_tolerate flagging_steady (flags_updateOrder (.inr (.inl ⟨rfl,rfl⟩)))) _) fun _ => ?_
  refine steps_bind flagging_steady (steps_forEach flagging_steady (fun branchId => steps_forEach flagging_steady (fun entry =>
    steps_onlyIf flagging_steady (steps_tolerate flagging_steady (flags_updateOrder (.inr (.inr ⟨rfl,rfl⟩))))) _) _) fun _ => ?_
  exact steps_bind flagging_steady (flags_call rfl) fun _ =>
    steps_collect flagging_steady (fun orderId => (flags_call rfl : Flags (findOrderById orderId))) _
theorem receivePost_unlisted {w : World} {requester : Requester} {id : Nat} {orderIds : List Nat} {fates : List Fate} {orderId : Nat}
    {order : Order} (keyed : w.orders.Keyed) (stored : (w.run (receivePost requester id orderIds) fates).1.orders.row orderId = some order)
    (flagged : order.returnRequested = true) (fresh : ∀ before,w.orders.row orderId = some before → before.returnRequested = false) :
    ¬(w.run (receivePost requester id orderIds) fates).1.returnListed orderId := by
  intro listed
  obtain ⟨still,moved⟩ := run_ends (receivePost_flags requester id orderIds w keyed) fates
  obtain ⟨shown,found,waits,-⟩ := returnListed_waiting still listed
  have same : shown = order := Option.some.inj ((order_parts.mp found).1.symm.trans stored)
  rcases moved orderId order stored flagged with road | ⟨before,here,marked,-⟩
  · rw [same,road] at waits
    cases waits
  · rw [fresh before here] at marked
    cases marked

-- Approving asks for RECEIVED, to which no waiting order may go: it fails, and the orders stay.
abbrev Still (w : World) (op : Operation α) : Prop := op.Steps World.answer anyFate (fun now => now.orders = w.orders) fun _ _ => True
theorem still_call {w : World} {action : Action} (other : action.onOrders = false) : Still w (call action) :=
  steps_call fun now fate same _ => ⟨(answer_orders now fate other).trans same,trivial⟩
theorem still_orInsert {w : World} (row : Option (Nat × Post)) (fresh : Post) : Still w (orInsert row fresh) := by
  cases row with
  | some entry => exact steps_done steady_true _
  | none => exact steps_bind steady_true (still_call rfl) fun _ => steps_done steady_true _
theorem still_findPostsOf {w : World} (ids : List Nat) : Still w (findPostsOf ids) := by
  unfold findPostsOf
  split
  · exact steps_done steady_true _
  · exact still_call rfl

def Fails (w : World) (result : Except RpcError α) (after : World) : Prop := (∃ e,result = .error e) ∧ after.orders = w.orders
theorem approveRegion_fails {w now : World} {requester : Option Requester} {group : Nat × List (Nat × Nat × Order)} (rows : group.2 ≠ [])
    (waits : ∀ entry ∈ group.2,w.order entry.2.1 = some entry.2.2 ∧ entry.2.2.status = .waiting) (same : now.orders = w.orders) :
    World.ends anyFate (approveRegion requester group) (fun now => now.orders = w.orders) (Fails w) now := by
  refine ends_steps (still_call rfl) same (fun row now same _ => ?_) fun e _ same => ⟨⟨e,rfl⟩,same⟩
  refine ends_steps (still_orInsert _ _) same (fun post now same _ => ?_) fun e _ same => ⟨⟨e,rfl⟩,same⟩
  obtain ⟨entry,rest,first⟩ := List.exists_cons_of_ne_nil rows
  obtain ⟨stored,status⟩ := waits entry (first ▸ List.mem_cons_self)
  have here : now.order entry.2.1 = some entry.2.2 := by simpa [World.order,same] using stored
  simp only [first,List.map_cons]
  refine ends_bind (ends_bind fun fate _ => ?_)
  let dto : UpdateDto := {status:=some .received,returnRequested:=some false,postId:=some (some post.1)}
  have stuck : ∀ pick,∃ e,now.carry pick (.updateOrder entry.2.1 dto (requester.map (·.id))) = (now,.error e) :=
    fun _ => update_refused _ here (by rw [status]; rfl)
  obtain ⟨e,refused⟩ := answer_refused stuck fate
  rw [refused]
  exact ⟨same,⟨e,rfl⟩,same⟩
theorem approveReturnRequests_fails (w : World) (orderIds : List Nat) (requester : Option Requester) :
    World.ends anyFate (approveReturnRequests orderIds requester) (fun now => now.orders = w.orders) (Fails w) w := by
  refine ends_require (fun _ => ?_) fun _ => ⟨⟨_,rfl⟩,rfl⟩
  refine ends_findEach rfl (fun orders _ stored => ?_) fun e => ⟨⟨e,rfl⟩,rfl⟩
  refine ends_require (fun filled => ?_) fun _ => ⟨⟨_,rfl⟩,rfl⟩
  refine ends_steps (still_findPostsOf _) rfl (fun posts now same _ => ?_) fun e _ same => ⟨⟨e,rfl⟩,same⟩
  refine ends_refuse (fun located => ?_) fun _ _ => ⟨⟨_,rfl⟩,same⟩
  let regionOf := fun (order : Order) => order.regionId.or ((order.postId.bind (Table.row posts)).bind (·.regionId))
  let placed := (orders.filter fun entry => returnAwaited entry.2).filterMap fun entry => (regionOf entry.2).map (·,entry)
  have waits : ∀ item ∈ placed,w.order item.2.1 = some item.2.2 ∧ item.2.2.status = .waiting := by
    intro item member
    obtain ⟨entry,eligible,fits⟩ := List.mem_filterMap.mp member
    obtain ⟨region,-,rfl⟩ := Option.map_eq_some_iff.mp fits
    obtain ⟨inside,awaited⟩ := List.mem_filter.mp eligible
    exact ⟨stored entry inside,by simpa using (Bool.and_eq_true_iff.mp awaited).1⟩
  have rows : groupBy (·.1) placed ≠ [] := by
    obtain ⟨entry,rest,first⟩ : ∃ entry rest,(orders.filter fun entry => returnAwaited entry.2) = entry :: rest :=
      List.exists_cons_of_ne_nil (by simpa using filled)
    have eligible : entry ∈ orders.filter fun entry => returnAwaited entry.2 := first ▸ List.mem_cons_self
    obtain ⟨region,known⟩ : ∃ region,regionOf entry.2 = some region := by
      have some' := List.find?_eq_none.mp located entry eligible
      exact Option.ne_none_iff_exists'.mp fun none => some' (Option.isNone_iff_eq_none.mpr none)
    have inside : (region,entry) ∈ placed := List.mem_filterMap.mpr ⟨entry,eligible,by simp [known]⟩
    have key : region ∈ (placed.map (·.1)).eraseDups := List.mem_eraseDups.mpr (List.mem_map_of_mem inside)
    exact List.ne_nil_of_mem (List.mem_map_of_mem key)
  obtain ⟨group,rest,first⟩ := List.exists_cons_of_ne_nil rows
  have member : group ∈ groupBy (·.1) placed := first ▸ List.mem_cons_self
  have fails : World.ends anyFate (approveRegion requester group) (fun now => now.orders = w.orders) (Fails w) now :=
    approveRegion_fails (groupBy_filled member) (fun item inside => by
      rw [groupBy_parts member] at inside
      exact waits item (List.mem_filter.mp inside).1) same
  have loop : World.ends anyFate (forEach (approveRegion requester) (groupBy (·.1) placed)) (fun now => now.orders = w.orders) (Fails w) now := by
    rw [first]
    refine ends_bind (ends_mono fails fun result after failed => ?_)
    obtain ⟨⟨e,rfl⟩,kept⟩ := failed
    exact ⟨⟨e,rfl⟩,kept⟩
  refine ends_bind (ends_mono loop fun result after failed => ?_)
  obtain ⟨⟨e,rfl⟩,kept⟩ := failed
  exact ⟨⟨e,rfl⟩,kept⟩

-- Every status that is asked for is allowed exactly where the request agrees. A flagged order is
-- listed exactly while it waits, which it does not when it is flagged, and approving never goes through.
theorem statuses_agree_exact (request : Request) (w : World) :
    (∀ run : List Answers,(∀ answers ∈ run,Sensible answers) → ∀ asked ∈ request.asks run,
      ∃ seen,asked.seen = some seen ∧ (isValidStatusTransition seen asked.target = true ↔ request.agrees seen asked.target = true)) ∧
    (∀ id,w.returnListed id ↔ id ∈ (w.list flaggedWaiting).map (·.1)) ∧
    (∀ (requester : Requester) (id : Nat) (orderIds : List Nat) (fates : List Fate) (orderId : Nat) (order : Order),
      w.orders.Keyed → (w.run (receivePost requester id orderIds) fates).1.orders.row orderId = some order → order.returnRequested = true →
      (∀ before,w.orders.row orderId = some before → before.returnRequested = false) →
      ¬(w.run (receivePost requester id orderIds) fates).1.returnListed orderId) ∧
    ∀ (orderIds : List Nat) (requester : Option Requester) (fates : List Fate),
      Fails w (w.run (approveReturnRequests orderIds requester) fates).2.1 (w.run (approveReturnRequests orderIds requester) fates).1 := by
  refine ⟨?_,returnListed_exact w,?_,?_⟩
  · intro run sensible asked member
    have nothing : Good request.Fits ⟨fun _ => none,[]⟩ := by simp [Good]
    have good : Good request.Fits (request.operation.exec observe silence run ⟨fun _ => none,[]⟩).1 :=
      ends_always (request_asks request nothing) sensible (fun _ _ => nofun) nothing
    obtain ⟨seen,known,admitted⟩ := good asked member
    exact ⟨seen,known,admitted_exact request admitted⟩
  · intro requester id orderIds fates orderId order keyed stored flagged fresh
    exact receivePost_unlisted keyed stored flagged fresh
  · intro orderIds requester fates
    exact run_ends (approveReturnRequests_fails w orderIds requester) fates

-- A courier receives one of the two orders of his post.
def onTheRoadOrder : Order := {sampleOrder with status:=.onTheRoad,regionId:=some 1}
def roadWorld : World :=
  {posts:=[(5,⟨7,20000000,2,some 1,none,.sent⟩)],nextPost:=6,orders:=[(11,onTheRoadOrder),(12,onTheRoadOrder)],assignments:=[],couriers:=[7],
   lookups:=sampleLookups 3000000 1000}
def halfReceived : World := (roadWorld.run (receivePost sampleCourier 5 [11]) []).1
-- And later somebody approves a request that waits.
def approvals : Answers
  | .findOrderById _ => .ok {sampleOrder with returnRequested:=true,regionId:=some 1}
  | .findPosts _ => .ok []
  | .findPost _ => .ok none
  | .insertPost _ => .ok 1
  | _ => .error unavailable
theorem approvals_sensible : ∀ answers ∈ List.replicate 5 approvals,Sensible answers := by
  intro answers member sel rows answered
  obtain ⟨-,rfl⟩ := List.mem_replicate.mp member
  cases answered
theorem statuses_agree_exact_flagged :
    ((∀ answers ∈ List.replicate 5 approvals,Sensible answers) ∧
      (Request.approveReturnRequests [12] none).asks (List.replicate 5 approvals) = [⟨12,some .waiting,.received⟩] ∧
      isValidStatusTransition .waiting .received = false) ∧
    (halfReceived.order 12).map (·.returnRequested) = some true ∧ ¬halfReceived.returnListed 12 ∧
    ∃ e,(halfReceived.run (approveReturnRequests [12] none) []).2.1 = .error e := by
  refine ⟨⟨approvals_sensible,rfl,rfl⟩,rfl,?_,?_⟩
  · rw [returnListed_exact]
    decide
  · exact (run_ends (approveReturnRequests_fails halfReceived [12] none) []).1
theorem statuses_agree_exact_received : (∃ seen,some .waiting = some seen ∧
    (isValidStatusTransition seen .received = true ↔ (Request.approveReturnRequests [12] none).agrees seen .received = true)) ∧
    ¬halfReceived.returnListed 12 := by
  obtain ⟨each,-,unlisted,-⟩ := statuses_agree_exact (.approveReturnRequests [12] none) roadWorld
  constructor
  · exact each (List.replicate 5 approvals) approvals_sensible ⟨12,some .waiting,.received⟩ (by decide)
  · obtain ⟨order,stored,flagged⟩ : ∃ order,halfReceived.orders.row 12 = some order ∧ order.returnRequested = true := ⟨_,rfl,rfl⟩
    exact unlisted sampleCourier 5 [11] [] 12 order (by decide) stored flagged fun before same => by
      cases same
      rfl

end Elchi.Logistics
