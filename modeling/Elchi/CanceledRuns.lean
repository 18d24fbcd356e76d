import Elchi.CanceledReceipts
import Elchi.GuardedRuns
import Elchi.OrderEpochs
namespace Elchi.Logistics
open RowLock Orders Programs

def groupKeys (w : World) (id : Nat) (post : Post) (target : Nat) : List Nat := (groupOf w id (sourceOf post target)).map (·.1)
-- An order that was not received is with the courier who sent it, or at the branch that sent it to the head office.
def BackWith (w after : World) (post : Post) (target o : Nat) : Prop :=
  ∃ order,after.order o = some order ∧ order.status = .cancelledSent ∧
    if w.lookups.hqBranchId = some target then
      ∃ assignment,w.assignments.row post.courierId = some assignment ∧ assignment.branchId ≠ target ∧ order.branchId = some assignment.branchId
    else order.courierId = some post.courierId
def Partitioned (w after : World) (id : Nat) (ids : List Nat) : Prop :=
  ∃ post target,w.posts.row id = some post ∧ targetOf w post = some target ∧ (∀ o ∈ ids,SentIn w (groupKeys w id post target) o) ∧
    ∀ o,SentIn w (groupKeys w id post target) o → (o ∈ ids → ReceivedAt after target o) ∧ (o ∉ ids → BackWith w after post target o)

-- What follows once the orders have been received.
def finishReceipt (requester : Requester) (receipt : Receipt) : Operation ReceiptReply := do
  forEach closePost receipt.group
  let requeued ← requeueRest requester receipt
  pure {
    orderIds:=receipt.received,remainingOrderIds:=receipt.remaining.map (·.1),requeuedPostIds:=requeued,
    groupedPostIds:=receipt.group.map (·.1),branchId:=receipt.targetBranchId}
theorem receive_parts (requester : Requester) (id : Nat) (ids : List Nat) :
    receiveCanceledPost requester id ids = (openReceipt requester id ids).bind (finishReceipt requester) := rfl

section Receiving
variable {w s : World} {id : Nat} {ids : List Nat} {receipt : Receipt}

theorem opened_listed (opened : Opened w id ids receipt s) (traced : Traced w) {entry : Nat × Order} (member : entry ∈ receipt.orders) :
    w.order entry.1 = some entry.2 ∧ SentIn w (receipt.group.map (·.1)) entry.1 :=
  mem_groupOrders traced.orders (opened.orders ▸ member)
theorem mem_remaining {entry : Nat × Order} : entry ∈ receipt.remaining ↔ entry ∈ receipt.orders ∧ entry.1 ∉ receipt.received := by
  simp [Receipt.remaining]
-- The orders that are still under way after the opening: none of the group but the remaining ones.
theorem opened_apart (opened : Opened w id ids receipt s) (traced : Traced w) (few : Few w (receipt.group.map (·.1))) {o : Nat} {order : Order}
    (stored : s.order o = some order) (waiting : order.status = .cancelledSent) (others : o ∉ receipt.remaining.map (·.1)) :
    ∃ p,order.canceledPostId = some p ∧ w.underway p ∧ p ∉ receipt.group.map (·.1) := by
  have unreceived : o ∉ receipt.received := fun member => by
    obtain ⟨order',there,cancelled,-⟩ := opened.done o member
    rw [stored] at there
    cases there
    rw [waiting] at cancelled
    cases cancelled
  rw [opened.others o unreceived] at stored
  obtain ⟨p,named,underway⟩ := traced.named o order stored waiting
  refine ⟨p,named,underway,fun inside => others ?_⟩
  have listed := groupOrders_complete traced.orders few ⟨order,p,stored,waiting,named,inside⟩
  rw [← opened.orders] at listed
  obtain ⟨entry,member,rfl⟩ := List.mem_map.mp listed
  exact List.mem_map_of_mem (mem_remaining.mpr ⟨member,unreceived⟩)
theorem whole_ends {requester : Requester} (opened : Opened w id ids receipt s) (traced : Traced w) (few : Few w (receipt.group.map (·.1)))
    (whole : receipt.remaining = []) :
    s.ends anyFate (finishReceipt requester receipt) (fun _ => True) fun _ after => Traced after ∧ ∀ o,after.order o = s.order o := by
  have kept : ∀ after,Closing s (receipt.group.map (·.1)) after → Traced after ∧ ∀ o,after.order o = s.order o := by
    intro after closing
    have same : ∀ o,after.order o = s.order o := fun o => by
      rw [World.order,closing.orders]
      rfl
    refine ⟨⟨closing.posts,closing.orders ▸ opened.traced.orders,fun o order stored waiting => ?_⟩,same⟩
    obtain ⟨p,named,⟨post,there,canceled⟩,outside⟩ := opened_apart opened traced few ((same o).symm.trans stored) waiting (by simp [whole])
    exact ⟨p,named,post,by rw [closing.others p outside,opened.posts,there],canceled⟩
  refine ends_bind (ends_mono (closePosts_ends ⟨rfl,opened.traced.posts,fun _ _ => rfl⟩) fun result after closing => ?_)
  cases result with
  | error e => exact kept after closing
  | ok _ =>
    have nothing : requeueRest requester receipt = pure [] := by
      unfold requeueRest
      rw [whole]
      rfl
    rw [nothing]
    exact kept after closing
theorem rest_ends {requester : Requester} (opened : Opened w id ids receipt s) (traced : Traced w) (few : Few w (receipt.group.map (·.1)))
    (near : receipt.isHqReceipt = false) :
    s.ends undisturbed (finishReceipt requester receipt) (fun _ => True) fun _ after => Traced after ∧
      (∀ o ∈ receipt.received,after.order o = s.order o) ∧ ∀ entry ∈ receipt.remaining,SentBack after receipt.post.courierId entry.1 := by
  refine ends_bind (ends_mono (closeAll_ends ⟨rfl,opened.traced.posts,fun _ _ => rfl⟩) fun result now closing => ?_)
  obtain ⟨closing,rfl⟩ := closing
  have same : ∀ o,now.order o = s.order o := fun o => by
    rw [World.order,closing.orders]
    rfl
  have waiting : ∀ entry ∈ receipt.remaining,Waiting s entry.1 := fun entry member => by
    obtain ⟨listed,unreceived⟩ := mem_remaining.mp member
    obtain ⟨stored,order,_,there,status,-⟩ := opened_listed opened traced listed
    exact ⟨order,by rw [opened.others _ unreceived,there],status⟩
  have start : Requeued s (receipt.group.map (·.1)) receipt.post.courierId [] now := by
    refine ⟨closing.posts,closing.orders ▸ opened.traced.orders,fun p outside under => ?_,by simp,fun o _ => same o⟩
    obtain ⟨post,there,canceled⟩ := under
    exact ⟨post,by rw [closing.others p outside,there],canceled⟩
  refine ends_bind (ends_mono (requeueRest_ends near rfl waiting start) fun result after ended => ?_)
  obtain ⟨⟨ps,rfl⟩,done,all,requeued⟩ := ended
  refine ⟨⟨requeued.posts,requeued.orders,fun o order stored sent => ?_⟩,fun o received => ?_,fun entry member => ?_⟩
  · by_cases inside : o ∈ done
    · obtain ⟨order',p,there,-,named,underway,-⟩ := requeued.back o inside
      rw [stored] at there
      cases there
      exact ⟨p,named,underway⟩
    · obtain ⟨p,named,underway,outside⟩ := opened_apart opened traced few ((requeued.others o inside).symm.trans stored) sent
        fun member => inside ((all o).mpr member)
      refine ⟨p,named,requeued.kept p outside ?_⟩
      rw [World.underway,opened.posts]
      exact underway
  · refine requeued.others o fun inside => ?_
    obtain ⟨entry,member,rfl⟩ := List.mem_map.mp ((all o).mp inside)
    exact (mem_remaining.mp member).2 received
  · exact requeued.back entry.1 ((all entry.1).mpr (List.mem_map_of_mem member))

end Receiving

inductive BackRequest where
  | send (requester : Requester) (givenIds : List Nat)
  | sendToHq (requester : Requester) (givenIds : List Nat)
  | receive (requester : Requester) (id : Nat) (orderIds : List Nat)
-- One request, with what becomes of its calls.
structure BackStep where
  request : BackRequest
  fates : List Fate
def BackStep.apply (w : World) (step : BackStep) : World :=
  match step.request with
  | .send requester givenIds => (w.run (createCanceledPost requester givenIds) step.fates).1
  | .sendToHq requester givenIds => (w.run (createCanceledPostToHq requester givenIds) step.fates).1
  | .receive requester id orderIds => (w.run (receiveCanceledPost requester id orderIds) step.fates).1
def assignedTo (courierId : Nat) (order : Order) : Prop := order.holderCourierId = some courierId ∨ order.courierId = some courierId
def Tracked (w : World) : Prop :=
  ∀ o order,w.order o = some order → order.status = .cancelledSent → ∃ p,order.canceledPostId = some p ∧ w.underway p
-- What a request has to do: a courier moves his own orders, and a receipt parts the orders of its posts.
def BackStep.keeps (w : World) (step : BackStep) : Prop :=
  match step.request with
  | .send requester _ => requester.hasRole .manager = false → ∀ o,(step.apply w).order o ≠ w.order o →
      ∃ order,w.order o = some order ∧ isCancelledPostEligibleOrder order.status = true ∧
        (assignedTo requester.id order ∨ inOwn w requester.id order)
  | .sendToHq _ _ => True
  | .receive requester id orderIds => ∀ reply,(w.run (receiveCanceledPost requester id orderIds) step.fates).2.1 = .ok reply →
      Partitioned w (step.apply w) id orderIds
-- A courier lists no order that is under way for another; a post has no more orders than one page, and what is left of its group
-- is left at a branch, by a receipt whose calls all go from the closing on.
def BackStep.fits (w : World) (step : BackStep) : Prop :=
  match step.request with
  | .send requester givenIds => requester.hasRole .manager = true ∨ ∀ o ∈ givenIds,∀ order,w.order o = some order →
      order.status = .cancelledSent → assignedTo requester.id order ∨ inOwn w requester.id order
  | .sendToHq _ _ => True
  | .receive requester id orderIds => ∀ post target,w.posts.row id = some post → targetOf w post = some target →
      Few w (groupKeys w id post target) ∧ ((∀ o,SentIn w (groupKeys w id post target) o → o ∈ orderIds) ∨
        (w.lookups.hqBranchId ≠ some target ∧ ∀ fate ∈ (w.run (openReceipt requester id orderIds) step.fates).2.2,undisturbed fate))

section Steps
variable {w : World}

theorem owned_assigned {order : Order} {courierId branchId : Nat} (owned : isCancelledOrderOwnedByCourier order courierId branchId = true) :
    assignedTo courierId order := by
  unfold isCancelledOrderOwnedByCourier at owned
  split at owned
  next holder held =>
    simp only [Bool.and_eq_true,beq_iff_eq] at owned
    exact .inl (by rw [held,owned.1])
  next =>
    simp only [Bool.and_eq_true,beq_iff_eq] at owned
    exact .inr owned.1.1
theorem send_step {requester : Requester} {givenIds : List Nat} {fates : List Fate} (traced : Traced w)
    (fits : BackStep.fits w ⟨.send requester givenIds,fates⟩) : Traced (BackStep.apply w ⟨.send requester givenIds,fates⟩) ∧
      BackStep.keeps w ⟨.send requester givenIds,fates⟩ := by
  cases manager : requester.hasRole .manager with
  | true =>
    have same : createCanceledPost requester givenIds = createCanceledPostToHq requester givenIds := by
      unfold createCanceledPost
      rw [manager]
      rfl
    refine ⟨?_,fun courier => absurd manager (by simp [courier])⟩
    have ends : Traced (w.run (createCanceledPostToHq requester givenIds) fates).1 := run_ends (createToHq_ends givenIds traced) fates
    simpa only [BackStep.apply,same] using ends
  | false =>
    have shipped := run_ends (createByCourier_ends givenIds manager traced) fates
    refine ⟨shipped.traced,fun _ o differs => ?_⟩
    obtain ⟨order,stored,listed,eligible,branchId,owned⟩ := shipped.changed o differs
    refine ⟨order,stored,eligible,?_⟩
    rcases fits with absurdity | others
    · rw [manager] at absurdity
      cases absurdity
    · simp only [isCancelledPostEligibleOrder,Bool.or_eq_true,beq_iff_eq] at eligible
      rcases eligible with cancelled | sent
      · exact .inl (owned_assigned (owned cancelled))
      · exact others o listed order stored sent
theorem run_ok {op : Operation α} {f : α → Operation β} {fates rest : List Fate} {s : World} {a : α}
    (first : w.run op fates = (s,.ok a,rest)) : w.run (op.bind f) fates = s.run (f a) rest := by
  have whole : (op.bind f).exec World.answer (.goes 0) fates w = _ := exec_bind op f fates w
  rw [show op.exec World.answer (.goes 0) fates w = _ from first] at whole
  exact whole
theorem run_error {op : Operation α} {f : α → Operation β} {fates rest : List Fate} {s : World} {e : RpcError}
    (first : w.run op fates = (s,.error e,rest)) : w.run (op.bind f) fates = (s,.error e,rest) := by
  have whole : (op.bind f).exec World.answer (.goes 0) fates w = _ := exec_bind op f fates w
  rw [show op.exec World.answer (.goes 0) fates w = _ from first] at whole
  exact whole
theorem partitioned {s after : World} {id : Nat} {ids : List Nat} {receipt : Receipt} (traced : Traced w) (opened : Opened w id ids receipt s)
    (received : ∀ o ∈ receipt.received,after.order o = s.order o)
    (back : ∀ post,w.posts.row id = some post → receipt.post = sourceOf post receipt.targetBranchId → ∀ entry ∈ receipt.remaining,
      BackWith w after post receipt.targetBranchId entry.1)
    (few : Few w (receipt.group.map (·.1))) : Partitioned w after id ids := by
  obtain ⟨post,stored,targeted,source⟩ := opened.stored
  have keys : groupKeys w id post receipt.targetBranchId = receipt.group.map (·.1) := by
    rw [groupKeys,← source,opened.group]
  have listed : ∀ o,o ∈ ids ↔ o ∈ receipt.received := fun o => by rw [opened.received,List.mem_eraseDups]
  refine ⟨post,receipt.targetBranchId,stored,targeted,fun o member => ?_,fun o sent => ⟨fun member => ?_,fun absent => ?_⟩⟩
  · obtain ⟨entry,inside,rfl⟩ := List.mem_map.mp (opened.inside o ((listed o).mp member))
    rw [keys]
    exact (opened_listed opened traced inside).2
  · obtain ⟨order,there,facts⟩ := opened.done o ((listed o).mp member)
    exact ⟨order,by rw [received o ((listed o).mp member),there],facts⟩
  · rw [keys] at sent
    have inside := groupOrders_complete traced.orders few sent
    rw [← opened.orders] at inside
    obtain ⟨entry,member,rfl⟩ := List.mem_map.mp inside
    exact back post stored source entry (mem_remaining.mpr ⟨member,fun own => absent ((listed _).mpr own)⟩)
theorem receive_step {requester : Requester} {id : Nat} {orderIds : List Nat} {fates : List Fate} (traced : Traced w)
    (fits : BackStep.fits w ⟨.receive requester id orderIds,fates⟩) : Traced (BackStep.apply w ⟨.receive requester id orderIds,fates⟩) ∧
      BackStep.keeps w ⟨.receive requester id orderIds,fates⟩ := by
  have ends : Traced (w.run (openReceipt requester id orderIds) fates).1 ∧ ∀ receipt,
      (w.run (openReceipt requester id orderIds) fates).2.1 = .ok receipt →
        Opened w id orderIds receipt (w.run (openReceipt requester id orderIds) fates).1 :=
    run_ends (openReceipt_ends traced) fates
  change ∀ post target,w.posts.row id = some post → targetOf w post = some target → Few w (groupKeys w id post target) ∧
    ((∀ o,SentIn w (groupKeys w id post target) o → o ∈ orderIds) ∨
      (w.lookups.hqBranchId ≠ some target ∧ ∀ fate ∈ (w.run (openReceipt requester id orderIds) fates).2.2,undisturbed fate)) at fits
  change Traced (w.run (receiveCanceledPost requester id orderIds) fates).1 ∧ ∀ reply,
    (w.run (receiveCanceledPost requester id orderIds) fates).2.1 = .ok reply →
      Partitioned w (w.run (receiveCanceledPost requester id orderIds) fates).1 id orderIds
  rw [receive_parts]
  rcases opening : w.run (openReceipt requester id orderIds) fates with ⟨s,result,rest⟩
  rw [opening] at ends fits
  cases result with
  | error e =>
    rw [run_error opening]
    exact ⟨ends.1,fun reply answered => nomatch answered⟩
  | ok receipt =>
    rw [run_ok opening]
    have opened := ends.2 receipt rfl
    obtain ⟨post,stored,targeted,source⟩ := opened.stored
    obtain ⟨few,ending⟩ := fits post receipt.targetBranchId stored targeted
    have keys : groupKeys w id post receipt.targetBranchId = receipt.group.map (·.1) := by
      rw [groupKeys,← source,opened.group]
    rw [keys] at few ending
    rcases ending with whole | ⟨near,fine⟩
    · have remaining : receipt.remaining = [] := by
        refine List.eq_nil_iff_forall_not_mem.mpr fun entry member => ?_
        obtain ⟨listed,unreceived⟩ := mem_remaining.mp member
        refine unreceived ?_
        rw [opened.received,List.mem_eraseDups]
        exact whole entry.1 (opened_listed opened traced listed).2
      have ended : Traced (s.run (finishReceipt requester receipt) rest).1 ∧
          ∀ o,(s.run (finishReceipt requester receipt) rest).1.order o = s.order o :=
        run_ends (whole_ends opened traced few remaining) rest
      refine ⟨ended.1,fun reply _ => partitioned traced opened (fun o _ => ended.2 o) (fun _ _ _ entry member => ?_) few⟩
      rw [remaining] at member
      cases member
    · have far : receipt.isHqReceipt = false := by
        rw [Bool.eq_false_iff]
        exact fun hq => near (opened.head.mpr hq)
      have ended : Traced (s.run (finishReceipt requester receipt) rest).1 ∧
          (∀ o ∈ receipt.received,(s.run (finishReceipt requester receipt) rest).1.order o = s.order o) ∧
          ∀ entry ∈ receipt.remaining,SentBack (s.run (finishReceipt requester receipt) rest).1 receipt.post.courierId entry.1 :=
        ends_exec (rest_ends opened traced few far) fine ⟨0,rfl⟩
      refine ⟨ended.1,fun reply _ => partitioned traced opened ended.2.1 (fun post' _ same entry member => ?_) few⟩
      obtain ⟨order,_,there,status,-,-,courier⟩ := ended.2.2 entry member
      refine ⟨order,there,status,?_⟩
      rw [if_neg near,courier,same]
      rfl
theorem step_tracked {step : BackStep} (traced : Traced w) (fits : step.fits w) : Traced (step.apply w) ∧ step.keeps w := by
  obtain ⟨request,fates⟩ := step
  cases request with
  | send requester givenIds => exact send_step traced fits
  | sendToHq requester givenIds => exact ⟨run_ends (createToHq_ends givenIds traced) fates,trivial⟩
  | receive requester id orderIds => exact receive_step traced fits

end Steps

-- Two orders that courier 7 has to bring back to branch 3.
def cancelledOrder : Order := {sampleOrder with status:=.cancelled,postId:=none}
def returns : World :=
  {posts:=[],nextPost:=1,orders:=[(11,cancelledOrder),(12,cancelledOrder)],
   assignments:=[(4,⟨3,.manager⟩),(7,⟨3,.courier⟩),(8,⟨3,.courier⟩)],couriers:=[7,8],lookups:=sampleLookups 3000000 1000}
def returnManager : Requester := {id:=4,roles:=[.manager],branchId:=some 3}
def bothSent : BackStep := ⟨.send sampleCourier [11,12],[]⟩
def oneReceived : BackStep := ⟨.receive returnManager 1 [11],[]⟩
theorem stored_in {w : World} {o : Nat} {order : Order} (keyed : w.orders.Keyed) (stored : w.order o = some order) : (o,order) ∈ w.orders :=
  (row_exact keyed).mpr (order_parts.mp stored).1
theorem returns_quiet {o : Nat} {order : Order} (stored : returns.order o = some order) : order.status ≠ .cancelledSent := by
  have all : ∀ entry ∈ returns.orders,entry.2.status ≠ .cancelledSent := by decide
  exact all (o,order) (stored_in (by decide) stored)
-- At the head office, what a receipt leaves stays there; a call that fails after the closing loses what is left; and an order that is
-- under way goes to any courier that names it.
def headOffice : World :=
  {returns with
    posts:=[(1,emptyPost 4 none (some 9) .canceled)],nextPost:=2
    orders:=[11,12].map fun id => (id,{cancelledOrder with status:=.cancelledSent,canceledPostId:=some 1,branchId:=some 9,courierId:=none
                                                           holderType:=.branch,holderBranchId:=some 9,holderCourierId:=none})}
def headReceipt : BackStep := ⟨.receive ⟨1,[.admin],none⟩ 1 [11],[]⟩
def lostReceipt : BackStep := ⟨.receive returnManager 1 [11],List.replicate 7 (.goes 0) ++ [.fails]⟩
def otherCourier : BackStep := ⟨.send ⟨8,[.courier],some 3⟩ [12],[]⟩
end Elchi.Logistics
