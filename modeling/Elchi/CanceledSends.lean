import Elchi.PostWorlds
namespace Elchi.Logistics
open RowLock Orders Programs

-- A post that is on its way back, and the orders that are sent back: each names one.
def World.underway (w : World) (p : Nat) : Prop := ∃ post,w.posts.row p = some post ∧ post.status = .canceled
structure Traced (w : World) : Prop where
  posts : w.posts.Keyed
  orders : w.orders.Keyed
  named : ∀ id order,w.order id = some order → order.status = .cancelledSent → ∃ p,order.canceledPostId = some p ∧ w.underway p
-- What has happened while orders were put into posts.
structure Sent (w : World) (ids : List Nat) (s : World) : Prop where
  traced : Traced s
  others : ∀ id,id ∉ ids → s.order id = w.order id
  kept : ∀ p,w.underway p → s.underway p

section Sending
variable {w s : World} {ids : List Nat}

theorem sent_start (traced : Traced w) : Sent w ids w := ⟨traced,fun _ _ => rfl,fun _ underway => underway⟩
theorem sent_order {id p : Nat} (sent : Sent w ids s) (inside : id ∈ ids) (underway : s.underway p) {dto : UpdateDto}
    (post : dto.canceledPostId = some (some p)) (requesterId : Option Nat) (fate : Fate) :
    Sent w ids (s.answer fate (.updateOrder id dto requesterId)).1 := by
  rw [answer_update]
  split
  · exact sent
  · rcases update_cases s id dto requesterId with ⟨e,refused⟩ | ⟨order,stored,-,done⟩
    · rw [refused]
      exact sent
    · rw [done]
      refine ⟨⟨sent.traced.posts,put_keyed sent.traced.orders _ _,fun other row there waiting => ?_⟩,fun other new => ?_,sent.kept⟩
      · rw [order_saved stored] at there
        by_cases same : other = id
        · rw [if_pos same] at there
          cases there
          exact ⟨p,by simp [post],underway⟩
        · rw [if_neg same] at there
          exact sent.traced.named other row there waiting
      · have apart : other ≠ id := fun same => new (same ▸ inside)
        rw [order_saved stored,if_neg apart,sent.others other new]
theorem underway_put {p : Nat} {post : Post} {after : World} (posts : after.posts = s.posts.put p post) (canceled : post.status = .canceled) :
    after.underway p ∧ ∀ q,s.underway q → after.underway q := by
  have here : after.posts.row p = some post := by rw [posts,row_put,if_pos rfl]
  refine ⟨⟨post,here,canceled⟩,fun q ⟨old,stored,status⟩ => ?_⟩
  by_cases same : p = q
  · exact ⟨post,same ▸ here,canceled⟩
  · exact ⟨old,by rw [posts,row_put,if_neg same,stored],status⟩
theorem sent_post {p : Nat} {post : Post} {after : World} (sent : Sent w ids s) (orders : after.orders = s.orders)
    (posts : after.posts = s.posts.put p post) (canceled : post.status = .canceled) : Sent w ids after := by
  obtain ⟨-,kept⟩ := underway_put posts canceled
  have same : ∀ id,after.order id = s.order id := fun id => by
    rw [World.order,orders]
    rfl
  refine ⟨⟨posts ▸ put_keyed sent.traced.posts _ _,orders ▸ sent.traced.orders,fun id order stored waiting => ?_⟩,fun id new => ?_,
    fun q underway => kept q (sent.kept q underway)⟩
  · obtain ⟨q,named,underway⟩ := sent.traced.named id order (same id ▸ stored) waiting
    exact ⟨q,named,kept q underway⟩
  · rw [same,sent.others id new]

theorem ends_call {allowed : Fate → Prop} {always : World → Prop} {action : Action} {Q : Except RpcError (Reply action) → World → Prop}
    (each : ∀ fate,allowed fate → always (s.answer fate action).1 ∧ Q (s.answer fate action).2 (s.answer fate action).1) :
    s.ends allowed (call action) always Q := each

-- The active post of a sender, as it was read, and the orders that are in it.
structure Active (w : World) (courierId : Nat) (row : Option (Nat × Post)) : Prop where
  stored : ∀ entry,row = some entry → w.posts.row entry.1 = some entry.2
  canceled : ∀ entry,row = some entry → entry.2.status = .canceled
  own : ∀ entry,row = some entry → entry.2.courierId = courierId
def inOwn (w : World) (courierId : Nat) (order : Order) : Prop :=
  ∃ p post,order.canceledPostId = some p ∧ w.posts.row p = some post ∧ post.status = .canceled ∧ post.courierId = courierId
theorem inOrder_ends {allowed : Fate → Prop} {always : World → Prop} {order : Order} {row : Option (Nat × Post)} {courierId : Nat} (branchId : Nat)
    (now : always w) (keyed : w.posts.Keyed) (active : Active w courierId row) :
    w.ends allowed (isOrderInActiveCanceledPost order row courierId branchId) always fun result after =>
      after = w ∧ (result = .ok true → inOwn w courierId order) := by
  unfold isOrderInActiveCanceledPost
  cases named : order.canceledPostId with
  | none => exact ⟨rfl,fun answered => nomatch answered⟩
  | some p =>
    dsimp only
    split
    · exact ⟨rfl,fun answered => nomatch answered⟩
    · split
      next mentioned =>
        cases row with
        | none => cases mentioned
        | some entry =>
          obtain rfl : entry.1 = p := by simpa using mentioned
          exact ⟨rfl,fun _ => ⟨entry.1,entry.2,named,active.stored entry rfl,active.canceled entry rfl,active.own entry rfl⟩⟩
      next =>
        refine ends_findPost now (fun row chosen _ => ⟨rfl,fun answered => ?_⟩) fun e => ⟨rfl,fun answered => nomatch answered⟩
        cases row with
        | none => cases answered
        | some entry =>
          obtain ⟨stored,asked⟩ := select_row keyed (chosen entry rfl)
          have suits : isActiveCanceledPostForTarget (some entry) courierId branchId = true := Except.ok.inj answered
          obtain ⟨rfl,canceled⟩ : entry.1 = p ∧ entry.2.status = .canceled := by simpa using asked
          obtain ⟨⟨-,own⟩,-⟩ : (entry.2.status = .canceled ∧ entry.2.courierId = courierId) ∧ entry.2.branchId = some branchId := by
            simpa [isActiveCanceledPostForTarget] using suits
          exact ⟨entry.1,entry.2,named,stored,canceled,own⟩
theorem sortOrders_ends {always : World → Prop} {orders : Table Order} {row : Option (Nat × Post)} {courierId : Nat} (branchId : Nat)
    (now : always w) (keyed : w.posts.Keyed) (active : Active w courierId row) :
    w.ends allowed (sortOrders row courierId branchId orders) always fun result after =>
      after = w ∧ ∀ toSend toRepair,result = .ok (toSend,toRepair) → (∀ entry ∈ toSend,entry ∈ orders) ∧
        ∀ entry ∈ toRepair,entry ∈ orders ∧ inOwn w courierId entry.2 := by
  unfold sortOrders
  refine ends_collect_bind (fun marked rest after => after = w ∧ marked.map (·.2) ++ rest = orders ∧
    ∀ mark ∈ marked,mark.1 = true → inOwn w courierId mark.2.2) ?_ ⟨rfl,rfl,fun mark member => nomatch member⟩ ?_
  · rintro marked entry rest after ⟨rfl,whole,seen⟩
    refine ends_bind (ends_mono (inOrder_ends branchId now keyed active) fun result later ended => ?_)
    obtain ⟨rfl,own⟩ := ended
    cases result with
    | error e => exact ⟨rfl,fun _ _ answered => nomatch answered⟩
    | ok already =>
      refine ⟨rfl,by simpa using whole,fun mark member => ?_⟩
      rcases List.mem_append.mp member with old | new
      · exact seen mark old
      · obtain rfl := List.mem_singleton.mp new
        rintro rfl
        exact own rfl
  · rintro marked after ⟨rfl,whole,seen⟩
    rw [List.append_nil] at whole
    refine ⟨rfl,fun toSend toRepair answered => ?_⟩
    cases answered
    refine ⟨fun entry member => ?_,fun entry member => ?_⟩
    · obtain ⟨mark,listed,rfl⟩ := List.mem_map.mp member
      exact whole ▸ List.mem_map_of_mem (List.mem_filter.mp listed).1
    · obtain ⟨mark,listed,rfl⟩ := List.mem_map.mp member
      obtain ⟨inside,chosen⟩ := List.mem_filter.mp listed
      exact ⟨whole ▸ List.mem_map_of_mem inside,seen mark inside (Bool.and_eq_true_iff.mp chosen).1⟩
theorem sent_insert {post : Post} (sent : Sent w ids s) (canceled : post.status = .canceled) (fate : Fate) :
    Sent w ids (s.answer fate (.insertPost post)).1 ∧
      ∀ p,(s.answer fate (.insertPost post)).2 = .ok p → (s.answer fate (.insertPost post)).1.underway p := by
  cases fate with
  | goes pick =>
    refine ⟨sent_post sent rfl rfl canceled,fun p answered => ?_⟩
    cases answered
    exact (underway_put rfl canceled).1
  | lost pick => exact ⟨sent_post sent rfl rfl canceled,fun p answered => nomatch answered⟩
  | fails => exact ⟨sent,fun p answered => nomatch answered⟩
theorem sent_save {p : Nat} {post : Post} (sent : Sent w ids s) (canceled : post.status = .canceled) (fate : Fate) :
    Sent w ids (s.answer fate (.savePost p post)).1 := by
  cases fate with
  | goes pick => exact sent_post sent rfl rfl canceled
  | lost pick => exact sent_post sent rfl rfl canceled
  | fails => exact sent
theorem orInsert_ends {allowed : Fate → Prop} {row : Option (Nat × Post)} {fresh : Post} (sent : Sent w ids s) (canceled : fresh.status = .canceled)
    (known : ∀ entry,row = some entry → entry.2.status = .canceled ∧ s.underway entry.1) :
    s.ends allowed (orInsert row fresh) (Sent w ids) fun result after => Sent w ids after ∧
      ∀ post,result = .ok post → post.2.status = .canceled ∧ after.underway post.1 := by
  cases row with
  | some entry =>
    refine ⟨sent,fun post answered => ?_⟩
    cases answered
    exact known entry rfl
  | none =>
    refine ends_bind (ends_call fun fate _ => ?_)
    obtain ⟨later,there⟩ := sent_insert sent canceled fate
    refine ⟨later,?_⟩
    split
    next p answered =>
      refine ⟨later,fun post made => ?_⟩
      cases made
      exact ⟨canceled,there p answered⟩
    next => exact ⟨later,fun post made => nomatch made⟩
theorem answer_posts (fate : Fate) {action : Action} (other : action.onPosts = false) : (s.answer fate action).1.posts = s.posts := by
  rcases answer_world s fate action with same | ⟨pick,same⟩
  · rw [same]
  · rw [same,(carry_posts s pick other).1]
-- Orders that are sent one after another, each to a post that is on its way.
theorem resend_ends {allowed : Fate → Prop} {β : Type} {f : Unit → Operation β} {Q : Except RpcError β → World → Prop} {rows : Table Order}
    {dto : Nat × Order → UpdateDto} {requesterId : Option Nat} (sent : Sent w ids s)
    (each : ∀ entry ∈ rows,entry.1 ∈ ids ∧ ∃ p,(dto entry).canceledPostId = some (some p) ∧ s.underway p)
    (rest : ∀ after,Sent w ids after → (∀ p,s.underway p → after.underway p) → after.ends allowed (f ()) (Sent w ids) Q)
    (stop : ∀ e after,Sent w ids after → Q (.error e) after) :
    s.ends allowed ((forEach (fun entry => updateOrder entry.1 (dto entry) requesterId) rows).bind f) (Sent w ids) Q := by
  refine ends_forEach_bind (fun left now => (∀ entry ∈ left,entry ∈ rows) ∧ Sent w ids now ∧ now.posts = s.posts) ?_
    ⟨fun entry member => member,sent,rfl⟩ fun after ended => rest after ended.2.1 fun p underway => ?_
  · rintro entry left now ⟨inside,sent,posts⟩
    obtain ⟨listed,p,target,underway⟩ := each entry (inside entry List.mem_cons_self)
    refine ends_call fun fate _ => ?_
    have later := sent_order sent listed (by rw [World.underway,posts]; exact underway) target requesterId fate
    refine ⟨later,?_⟩
    split
    · exact ⟨fun entry member => inside entry (List.mem_cons_of_mem _ member),later,(answer_posts fate rfl).trans posts⟩
    · exact stop _ _ later
  · rw [World.underway,ended.2.2]
    exact underway
theorem fillCanceledPost_ends {requester : Requester} {orders : Table Order} {canceledPost : Option (Nat × Post)} (branchId : Nat)
    (traced : Traced w) (active : Active w requester.id canceledPost) :
    w.ends anyFate (fillCanceledPost requester branchId canceledPost orders) (Sent w (orders.map (·.1))) fun _ =>
      Sent w (orders.map (·.1)) := by
  have known : ∀ entry,canceledPost = some entry → w.underway entry.1 := fun entry same =>
    ⟨entry.2,active.stored entry same,active.canceled entry same⟩
  refine ends_bind (ends_mono (sortOrders_ends branchId (sent_start traced) traced.posts active) fun result after ended => ?_)
  obtain ⟨rfl,parts⟩ := ended
  cases result with
  | error e => exact sent_start traced
  | ok pair =>
    obtain ⟨toSend,toRepair⟩ := pair
    obtain ⟨sends,repairs⟩ := parts toSend toRepair rfl
    refine resend_ends (sent_start traced) (fun entry member => ?_) (fun s sent kept => ?_) fun e s sent => sent
    · obtain ⟨listed,p,post,named,stored,canceled,-⟩ := repairs entry member
      refine ⟨List.mem_map_of_mem listed,?_⟩
      cases canceledPost with
      | none => exact ⟨p,congrArg some named,post,stored,canceled⟩
      | some entry => exact ⟨entry.1,rfl,known entry rfl⟩
    · dsimp only
      split
      · exact sent
      · refine ends_bind (ends_mono (orInsert_ends sent rfl fun entry same => ⟨active.canceled entry same,kept _ (known entry same)⟩)
          fun result s made => ?_)
        obtain ⟨sent,there⟩ := made
        cases result with
        | error e => exact sent
        | ok post =>
          obtain ⟨canceled,underway⟩ := there post rfl
          refine resend_ends sent (fun entry member => ⟨List.mem_map_of_mem (sends entry member),post.1,rfl,underway⟩) (fun s sent _ => ?_)
            fun e s sent => sent
          have filled : ∀ fate quantity total,Sent _ (orders.map (·.1))
              (s.answer fate (.savePost post.1 {post.2 with orderQuantity:=quantity,postTotalPrice:=total})).1 :=
            fun fate quantity total => sent_save sent (by exact canceled) fate
          refine ends_bind (ends_call fun fate _ => ⟨filled fate _ _,?_⟩)
          split
          · exact filled fate _ _
          · exact filled fate _ _

-- Only such orders have changed.
structure Shipped (w : World) (may : Nat → Order → Prop) (after : World) : Prop where
  traced : Traced after
  changed : ∀ id,after.order id ≠ w.order id → ∃ order,w.order id = some order ∧ may id order
theorem shipped_start (traced : Traced w) (may : Nat → Order → Prop) : Shipped w may w := ⟨traced,fun _ differs => absurd rfl differs⟩
theorem sent_shipped {may : Nat → Order → Prop} {orders : Table Order} (sent : Sent w (orders.map (·.1)) s)
    (read : ∀ entry ∈ orders,w.order entry.1 = some entry.2 ∧ may entry.1 entry.2) : Shipped w may s := by
  refine ⟨sent.traced,fun id differs => ?_⟩
  by_cases listed : id ∈ orders.map (·.1)
  · obtain ⟨entry,member,rfl⟩ := List.mem_map.mp listed
    exact ⟨entry.2,read entry member⟩
  · exact absurd (sent.others id listed) differs
def ownsCancelled (courierId branchId : Nat) (order : Order) : Prop :=
  order.status = .cancelled → isCancelledOrderOwnedByCourier order courierId branchId = true
theorem findPost_active {sel : Nat → Post → Bool} {courierId : Nat} {row : Option (Nat × Post)} (keyed : w.posts.Keyed)
    (chosen : ∀ entry,row = some entry → entry ∈ w.posts.select sel)
    (suits : ∀ key post,sel key post = true → post.courierId = courierId ∧ post.status = .canceled) : Active w courierId row := by
  have parts : ∀ entry,row = some entry → w.posts.row entry.1 = some entry.2 ∧ entry.2.courierId = courierId ∧ entry.2.status = .canceled :=
    fun entry same => ⟨(select_row keyed (chosen entry same)).1,suits _ _ (select_row keyed (chosen entry same)).2⟩
  exact ⟨fun entry same => (parts entry same).1,fun entry same => (parts entry same).2.2,fun entry same => (parts entry same).2.1⟩
theorem ends_findAssignment {allowed : Fate → Prop} {always : World → Prop} {β : Type} {f : Option Assignment → Operation β}
    {Q : Except RpcError β → World → Prop} {userId : Nat} (now : always w)
    (each : w.ends allowed (f (w.assignments.row userId)) always Q) (stop : ∀ e,Q (.error e) w) :
    w.ends allowed ((call (.findAssignment userId)).bind f) always Q := by
  refine ends_read (fun _ => rfl) now (fun pick assignment found => ?_) stop
  obtain rfl : w.assignments.row userId = assignment := Except.ok.inj found
  exact each
theorem ends_courierBranch {allowed : Fate → Prop} {always : World → Prop} {β : Type} {f : Nat → Operation β}
    {Q : Except RpcError β → World → Prop} {userId : Nat} (now : always w)
    (each : ∀ assignment,w.assignments.row userId = some assignment → w.ends allowed (f assignment.branchId) always Q)
    (stop : ∀ e,Q (.error e) w) : w.ends allowed ((findCourierBranchId userId).bind f) always Q := by
  refine ends_bind (ends_findAssignment (w:=w) now ?_ stop)
  cases assigned : w.assignments.row userId with
  | none => exact stop _
  | some assignment => exact each assignment assigned
theorem ends_findHqBranch {allowed : Fate → Prop} {always : World → Prop} {β : Type} {f : Nat → Operation β}
    {Q : Except RpcError β → World → Prop} (now : always w)
    (each : ∀ branchId,w.lookups.hqBranchId = some branchId → w.ends allowed (f branchId) always Q) (stop : ∀ e,Q (.error e) w) :
    w.ends allowed (findHqBranchId.bind f) always Q := by
  refine ends_read (fun _ => rfl) now (fun pick branchId found => ?_) stop
  cases head : w.lookups.hqBranchId with
  | none => simp [World.carry,head] at found
  | some hq => exact each branchId (by simpa [World.carry,head] using found)
theorem ends_scopedBranch {allowed : Fate → Prop} {always : World → Prop} {β : Type} {f : Option Nat → Operation β}
    {Q : Except RpcError β → World → Prop} {requester : Requester} (now : always w)
    (each : ∀ branchId,w.ends allowed (f branchId) always Q) (stop : ∀ e,Q (.error e) w) :
    w.ends allowed ((resolveScopedBranchId requester).bind f) always Q := by
  unfold resolveScopedBranchId
  split
  · exact each none
  · cases requester.branchId with
    | some branchId => exact each (some branchId)
    | none =>
      have asked : w.ends allowed (findBranchAssignmentByUserId requester.id) always fun _ after => after = w := by
        refine ends_bind (ends_attempt fun fate _ => ?_)
        have same : (w.answer fate (.findAssignment requester.id)).1 = w := by
          rcases answer_world w fate (.findAssignment requester.id) with same | ⟨pick,same⟩
          · exact same
          · exact same
        rw [same]
        refine ⟨now,?_⟩
        cases (w.answer fate (.findAssignment requester.id)).2 with
        | ok _ => exact rfl
        | error _ => exact rfl
      refine ends_bind (ends_bind (ends_mono asked fun result after same => ?_))
      subst same
      cases result with
      | error e => exact stop e
      | ok row =>
        cases row with
        | some assignment => exact each (some assignment.branchId)
        | none => exact stop _
theorem forall₂_right {R : α → β → Prop} {xs : List α} {ys : List β} (pairs : List.Forall₂ R xs ys) {y : β} (member : y ∈ ys) :
    ∃ x ∈ xs,R x y := by
  induction pairs with
  | nil => cases member
  | @cons x y' xs ys first _ ih =>
    rcases List.mem_cons.mp member with rfl | later
    · exact ⟨x,List.mem_cons_self,first⟩
    · obtain ⟨x',inside,related⟩ := ih later
      exact ⟨x',List.mem_cons_of_mem x inside,related⟩
-- What a sender's call has read before it moves anything.
theorem fill_shipped {requester : Requester} {orders : Table Order} {canceledPost : Option (Nat × Post)} (may : Nat → Order → Prop) (branchId : Nat)
    (traced : Traced w) (active : Active w requester.id canceledPost)
    (read : ∀ entry ∈ orders,w.order entry.1 = some entry.2 ∧ may entry.1 entry.2) :
    w.ends anyFate (fillCanceledPost requester branchId canceledPost orders) (fun _ => True) fun _ => Shipped w may :=
  ends_mono (ends_wider (fillCanceledPost_ends branchId traced active) fun _ _ => trivial) fun _ _ sent => sent_shipped sent read
def mayMove (requester : Requester) (givenIds : List Nat) (id : Nat) (order : Order) : Prop :=
  id ∈ givenIds ∧ isCancelledPostEligibleOrder order.status = true ∧ ∃ branchId,ownsCancelled requester.id branchId order
theorem createByCourier_ends {requester : Requester} (givenIds : List Nat) (courier : requester.hasRole .manager = false) (traced : Traced w) :
    w.ends anyFate (createCanceledPost requester givenIds) (fun _ => True) fun _ => Shipped w (mayMove requester givenIds) := by
  have stop := shipped_start traced (mayMove requester givenIds)
  unfold createCanceledPost
  rw [courier]
  refine ends_require (fun _ => ?_) fun _ => stop
  refine ends_courierBranch trivial (fun assignment _ => ?_) fun _ => stop
  · refine ends_findPost trivial (fun row chosen _ => ?_) fun _ => stop
    have active : Active w requester.id row := findPost_active traced.posts chosen fun key post suits => by
      simp only [Bool.and_eq_true,beq_iff_eq] at suits
      exact ⟨suits.1.1,suits.2⟩
    refine ends_readAll (fun id (entry : Nat × Order) => entry.1 = id ∧ w.order id = some entry.2 ∧
      isCancelledPostEligibleOrder entry.2.status = true ∧ ownsCancelled requester.id assignment.branchId entry.2) trivial (fun id => ?_)
      (fun orders read => ?_) fun _ => stop
    · refine ends_findOrderById trivial (fun order stored => ?_) fun _ => ⟨rfl,fun _ answered => nomatch answered⟩
      refine ends_require (fun eligible => ?_) fun _ => ⟨rfl,fun _ answered => nomatch answered⟩
      refine ends_require (fun owned => ⟨rfl,fun entry answered => ?_⟩) fun _ => ⟨rfl,fun _ answered => nomatch answered⟩
      cases answered
      refine ⟨rfl,stored,eligible,fun cancelled => ?_⟩
      have own : order.status = .cancelled := cancelled
      simpa [own] using owned
    · refine fill_shipped _ assignment.branchId traced active fun entry member => ?_
      obtain ⟨id,listed,rfl,stored,eligible,owned⟩ := forall₂_right read member
      exact ⟨stored,List.mem_eraseDups.mp listed,eligible,assignment.branchId,owned⟩
theorem createToHq_ends {requester : Requester} (givenIds : List Nat) (traced : Traced w) :
    w.ends anyFate (createCanceledPostToHq requester givenIds) (fun _ => True) fun _ => Traced := by
  unfold createCanceledPostToHq
  refine ends_require (fun _ => ?_) fun _ => traced
  refine ends_scopedBranch trivial (fun scope => ?_) fun _ => traced
  refine ends_found (fun sourceBranchId _ => ?_) fun _ => traced
  refine ends_findHqBranch trivial (fun hqBranchId _ => ?_) fun _ => traced
  refine ends_require (fun _ => ?_) fun _ => traced
  refine ends_require (fun _ => ?_) fun _ => traced
  refine ends_findPost trivial (fun row chosen _ => ?_) fun _ => traced
  have active : Active w requester.id row := findPost_active traced.posts chosen fun key post suits => by
    simp only [Bool.and_eq_true,beq_iff_eq] at suits
    exact ⟨suits.1.1,suits.2⟩
  refine ends_readAll (fun id (entry : Nat × Order) => w.order entry.1 = some entry.2) trivial (fun id => ?_) (fun orders read => ?_)
    fun _ => traced
  · refine ends_findOrderById trivial (fun order stored => ?_) fun _ => ⟨rfl,fun _ answered => nomatch answered⟩
    refine ends_require (fun _ => ?_) fun _ => ⟨rfl,fun _ answered => nomatch answered⟩
    refine ends_require (fun _ => ?_) fun _ => ⟨rfl,fun _ answered => nomatch answered⟩
    split
    · refine ends_bind (ends_mono (inOrder_ends hqBranchId trivial traced.posts active) fun result after ended => ?_)
      obtain ⟨rfl,-⟩ := ended
      cases result with
      | error e => exact ⟨rfl,fun _ answered => nomatch answered⟩
      | ok already =>
        refine ends_require (fun _ => ⟨rfl,fun entry answered => ?_⟩) fun _ => ⟨rfl,fun _ answered => nomatch answered⟩
        cases answered
        exact stored
    · refine ⟨rfl,fun entry answered => ?_⟩
      cases answered
      exact stored
  · refine ends_mono (fill_shipped (fun _ _ => True) hqBranchId traced active fun entry member => ?_) fun _ _ shipped => shipped.traced
    obtain ⟨id,-,stored⟩ := forall₂_right read member
    exact ⟨stored,trivial⟩

end Sending

end Elchi.Logistics
