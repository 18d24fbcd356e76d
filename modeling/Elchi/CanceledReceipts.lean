import Elchi.CanceledSends
namespace Elchi.Logistics
open RowLock Orders Programs

-- The branch that a post is received at, the posts that are received with it and their orders.
def targetOf (w : World) (post : Post) : Option Nat := post.branchId.or ((w.assignments.row post.courierId).map (·.branchId))
def sourceOf (post : Post) (target : Nat) : Post := {post with branchId:=some target}
def groupOf (w : World) (id : Nat) (source : Post) : Table Post :=
  mapById [(id,source)] ((w.posts.select fun _ post => post.courierId == source.courierId && post.status == .canceled).filter fun entry =>
    blankOr source.branchId entry.2.branchId && blankOr source.regionId entry.2.regionId)
def isSentIn (p : Nat) (_ : Nat) (order : Order) : Bool := order.canceledPostId == some p && order.status == .cancelledSent
def groupOrders (w : World) (group : Table Post) : Table Order := mapById [] (group.map fun entry => w.list (isSentIn entry.1)).flatten
-- An order that is under way in one of the posts.
def SentIn (w : World) (keys : List Nat) (o : Nat) : Prop :=
  ∃ order p,w.order o = some order ∧ order.status = .cancelledSent ∧ order.canceledPostId = some p ∧ p ∈ keys
def Few (w : World) (keys : List Nat) : Prop :=
  ∀ p ∈ keys,(w.orders.select fun id order => World.live id order && isSentIn p id order).length ≤ maxFetchAll

section Groups
variable {w : World} {group : Table Post}

theorem key_mapById {start rows : Table α} {key : Nat} (member : key ∈ start.map (·.1) ∨ key ∈ rows.map (·.1)) :
    key ∈ (mapById start rows).map (·.1) := by
  by_contra absent
  have missing := row_none.mpr absent
  rw [row_mapById,Option.or_eq_none_iff] at missing
  rcases member with first | later
  · exact row_none.mp missing.2 first
  · have found : ∀ rows : Table α,(mapById [] rows).row key = none → key ∉ rows.map (·.1) := by
      intro rows
      induction rows using List.reverseRecOn with
      | nil => simp
      | append_singleton front entry ih =>
        intro missing
        have long : mapById [] (front ++ [entry]) = (mapById [] front).put entry.1 entry.2 := by simp [mapById]
        rw [long,row_put] at missing
        split at missing
        · cases missing
        · rename_i apart
          simp only [List.map_append,List.map_cons,List.map_nil,List.mem_append,List.mem_singleton,not_or]
          exact ⟨ih missing,fun same => apart same.symm⟩
    exact found rows missing.1 later
theorem mem_groupOrders (keyed : w.orders.Keyed) {entry : Nat × Order} (member : entry ∈ groupOrders w group) :
    w.order entry.1 = some entry.2 ∧ SentIn w (group.map (·.1)) entry.1 := by
  rcases mem_mapById member with none | listed
  · cases none
  · obtain ⟨rows,inside,there⟩ := List.mem_flatten.mp listed
    obtain ⟨post,grouped,rfl⟩ := List.mem_map.mp inside
    obtain ⟨stored,sent⟩ := mem_list keyed there
    simp only [isSentIn,Bool.and_eq_true,beq_iff_eq] at sent
    exact ⟨stored,entry.2,post.1,stored,sent.2,sent.1,List.mem_map_of_mem grouped⟩
-- No order of the group is overlooked.
theorem groupOrders_complete (keyed : w.orders.Keyed) (few : Few w (group.map (·.1))) {o : Nat} (sent : SentIn w (group.map (·.1)) o) :
    o ∈ (groupOrders w group).map (·.1) := by
  obtain ⟨order,p,stored,status,named,inside⟩ := sent
  obtain ⟨post,grouped,rfl⟩ := List.mem_map.mp inside
  have whole : w.list (isSentIn post.1) =
      (w.orders.select fun id order => World.live id order && isSentIn post.1 id order).reverse :=
    List.take_of_length_le (by simpa using few post.1 inside)
  obtain ⟨row,alive⟩ := order_parts.mp stored
  have listed : (o,order) ∈ w.list (isSentIn post.1) := by
    rw [whole,List.mem_reverse,Table.select,List.mem_filter]
    exact ⟨(row_exact keyed).mpr row,by simp [alive,isSentIn,named,status]⟩
  refine key_mapById (.inr (List.mem_map_of_mem (a:=(o,order)) ?_))
  exact List.mem_flatten.mpr ⟨_,List.mem_map_of_mem grouped,listed⟩

theorem read_ends {allowed : Fate → Prop} {always : World → Prop} {action : Action} (reads : ∀ pick,(w.carry pick action).1 = w)
    (now : always w) : w.ends allowed (call action) always fun result after => after = w ∧
      ∀ a,result = .ok a → ∃ pick,(w.carry pick action).2 = .ok a := by
  intro fate _
  have same : (w.answer fate action).1 = w := (answer_world w fate action).elim id fun ⟨pick,same⟩ => same.trans (reads pick)
  rw [same]
  refine ⟨now,rfl,fun a answered => ?_⟩
  obtain ⟨pick,carried⟩ := answer_ok answered
  exact ⟨pick,by rw [← carried,answered]⟩
theorem findGroup_ends {allowed : Fate → Prop} {always : World → Prop} (id : Nat) (source : Post) (now : always w) :
    w.ends allowed (findCanceledPostGroup id source) always fun result after => after = w ∧
      ∀ group orders,result = .ok (group,orders) → group = groupOf w id source ∧ orders = groupOrders w group := by
  have asked : ∀ group : Table Post,w.ends allowed (collect (fun (candidate : Nat × Post) => findOrders (isSentIn candidate.1)) group) always
      fun result after => after = w ∧ ∀ lists,result = .ok lists → lists = group.map fun entry => w.list (isSentIn entry.1) := by
    intro group
    refine ends_collect (fun lists rest after => after = w ∧ ∃ front,front ++ rest = group ∧
      lists = front.map fun entry => w.list (isSentIn entry.1)) ?_ [] ⟨rfl,[],rfl,rfl⟩ ?_
    · intro lists entry rest after ⟨same,front,whole,done⟩
      subst same
      refine ends_mono (read_ends (fun _ => rfl) now) fun result later ended => ?_
      obtain ⟨same,given⟩ := ended
      cases result with
      | error e => exact ⟨same,fun _ answered => nomatch answered⟩
      | ok rows =>
        obtain ⟨pick,listed⟩ := given rows rfl
        obtain rfl : after.list (isSentIn entry.1) = rows := Except.ok.inj listed
        exact ⟨same,front ++ [entry],by simpa using whole,by simp [done]⟩
    · intro lists after ⟨same,front,whole,done⟩
      refine ⟨same,fun lists' answered => ?_⟩
      cases answered
      rw [List.append_nil] at whole
      rw [← whole]
      exact done
  refine ends_bind (ends_mono (read_ends (fun _ => rfl) now) fun result after ended => ?_)
  obtain ⟨rfl,given⟩ := ended
  cases result with
  | error e => exact ⟨rfl,fun _ _ answered => nomatch answered⟩
  | ok candidates =>
    obtain ⟨pick,listed⟩ := given candidates rfl
    obtain rfl : after.posts.select _ = candidates := Except.ok.inj listed
    refine ends_bind (ends_mono (asked _) fun result later ended => ?_)
    obtain ⟨rfl,lists⟩ := ended
    cases result with
    | error e => exact ⟨rfl,fun _ _ answered => nomatch answered⟩
    | ok orderGroups =>
      refine ⟨rfl,fun group orders answered => ?_⟩
      cases answered
      rw [lists orderGroups rfl]
      exact ⟨rfl,rfl⟩

end Groups

-- An order that a branch has received.
def ReceivedAt (after : World) (target o : Nat) : Prop :=
  ∃ order,after.order o = some order ∧ order.status = .cancelled ∧ order.canceledPostId = none ∧ order.branchId = some target
-- A receipt, and the state once its orders have been received.
structure Opened (w : World) (id : Nat) (ids : List Nat) (receipt : Receipt) (s : World) : Prop where
  stored : ∃ post,w.posts.row id = some post ∧ targetOf w post = some receipt.targetBranchId ∧
    receipt.post = sourceOf post receipt.targetBranchId
  head : w.lookups.hqBranchId = some receipt.targetBranchId ↔ receipt.isHqReceipt = true
  group : receipt.group = groupOf w id receipt.post
  orders : receipt.orders = groupOrders w receipt.group
  received : receipt.received = ids.eraseDups
  inside : ∀ o ∈ receipt.received,o ∈ receipt.orders.map (·.1)
  done : ∀ o ∈ receipt.received,ReceivedAt s receipt.targetBranchId o
  others : ∀ o,o ∉ receipt.received → s.order o = w.order o
  posts : s.posts = w.posts
  traced : Traced s

section Opening
variable {w s : World}

theorem traced_received (traced : Traced s) {id : Nat} {dto : UpdateDto} (status : dto.status = some .cancelled) (requesterId : Option Nat)
    (fate : Fate) : Traced (s.answer fate (.updateOrder id dto requesterId)).1 := by
  rw [answer_update]
  split
  · exact traced
  · rcases update_cases s id dto requesterId with ⟨e,refused⟩ | ⟨order,stored,-,done⟩
    · rw [refused]
      exact traced
    · rw [done]
      refine ⟨traced.posts,put_keyed traced.orders _ _,fun other row there waiting => ?_⟩
      rw [order_saved stored] at there
      split at there
      · cases there
        simp [status] at waiting
      · exact traced.named other row there waiting
-- An update that has answered has stored the order.
theorem update_answered {id : Nat} {dto : UpdateDto} {requesterId : Option Nat} {fate : Fate}
    (answered : (s.answer fate (.updateOrder id dto requesterId)).2 = .ok ()) :
    ∃ order,s.order id = some order ∧ ∀ other,(s.answer fate (.updateOrder id dto requesterId)).1.order other =
      if other = id then some (saved s.lookups requesterId dto order) else s.order other := by
  obtain ⟨pick,carried⟩ := answer_ok answered
  rw [carried] at answered ⊢
  rcases update_cases s id dto requesterId with ⟨e,refused⟩ | ⟨order,stored,-,done⟩
  · simp only [World.carry,refused] at answered
    cases answered
  · refine ⟨order,stored,fun other => ?_⟩
    simp only [World.carry,done]
    exact order_saved stored requesterId dto other
theorem ends_update {allowed : Fate → Prop} {always : World → Prop} {id : Nat} {dto : UpdateDto} {requesterId : Option Nat}
    {Q : Except RpcError Unit → World → Prop} (each : ∀ fate,allowed fate → always (s.answer fate (.updateOrder id dto requesterId)).1 ∧
      Q (s.answer fate (.updateOrder id dto requesterId)).2 (s.answer fate (.updateOrder id dto requesterId)).1) :
    s.ends allowed (updateOrder id dto requesterId) always Q := each
theorem receiveOrders_ends {ids : List Nat} {target : Nat} {requesterId : Option Nat} (traced : Traced w) :
    w.ends anyFate (forEach (fun orderId => updateOrder orderId
        {status:=some .cancelled,branchId:=some (some target),courierId:=some none,assignedAt:=some none,canceledPostId:=some none}
        requesterId) ids) (fun _ => True) fun result s => Traced s ∧ s.posts = w.posts ∧
      (result = .ok () → (∀ o ∈ ids,ReceivedAt s target o) ∧ ∀ o,o ∉ ids → s.order o = w.order o) := by
  refine ends_forEach (fun left s => Traced s ∧ s.posts = w.posts ∧ ∃ front,front ++ left = ids ∧
    (∀ o ∈ front,ReceivedAt s target o) ∧ ∀ o,o ∉ front → s.order o = w.order o) ?_ ⟨traced,rfl,[],rfl,by simp,fun _ _ => rfl⟩ ?_
  · intro o left s ⟨traced,posts,front,whole,received,others⟩
    refine ends_update fun fate _ => ⟨trivial,?_⟩
    let dto : UpdateDto :=
      {status:=some .cancelled,branchId:=some (some target),courierId:=some none,assignedAt:=some none,canceledPostId:=some none}
    have later : Traced (s.answer fate (.updateOrder o dto requesterId)).1 := traced_received traced rfl requesterId fate
    have same : (s.answer fate (.updateOrder o dto requesterId)).1.posts = w.posts := (answer_posts fate rfl).trans posts
    cases answered : (s.answer fate (.updateOrder o dto requesterId)).2 with
    | error e => exact ⟨later,same,fun answered => nomatch answered⟩
    | ok _ =>
      obtain ⟨order,stored,saves⟩ := update_answered answered
      refine ⟨later,same,front ++ [o],by simpa using whole,fun other member => ?_,fun other new => ?_⟩
      · by_cases own : other = o
        · exact ⟨_,by rw [saves,if_pos own],by simp [dto],by simp [dto],by simp [dto]⟩
        · obtain ⟨order',there,facts⟩ := received other (by simpa [own] using member)
          exact ⟨order',by rw [saves,if_neg own,there],facts⟩
      · simp only [List.mem_append,List.mem_singleton,not_or] at new
        rw [saves,if_neg new.2,others other new.1]
  · intro s ⟨traced,posts,front,whole,received,others⟩
    obtain rfl : front = ids := by simpa using whole
    exact ⟨traced,posts,fun _ => ⟨received,others⟩⟩
theorem ends_branchOfPost {allowed : Fate → Prop} {always : World → Prop} {β : Type} {f : Nat → Operation β}
    {Q : Except RpcError β → World → Prop} {post : Post} (now : always w)
    (each : ∀ target,targetOf w post = some target → w.ends allowed (f target) always Q) (stop : ∀ e,Q (.error e) w) :
    w.ends allowed ((branchOfPost post).bind f) always Q := by
  unfold branchOfPost
  cases branch : post.branchId with
  | some branchId => exact each branchId (by simp [targetOf,branch])
  | none => exact ends_courierBranch now (fun assignment assigned => each assignment.branchId (by simp [targetOf,branch,assigned])) stop
theorem openReceipt_ends {requester : Requester} {id : Nat} {ids : List Nat} (traced : Traced w) :
    w.ends anyFate (openReceipt requester id ids) (fun _ => True) fun result s => Traced s ∧
      ∀ receipt,result = .ok receipt → Opened w id ids receipt s := by
  have stop : ∀ e,Traced w ∧ ∀ receipt,(.error e : Except RpcError Receipt) = .ok receipt → Opened w id ids receipt w :=
    fun _ => ⟨traced,fun _ answered => nomatch answered⟩
  unfold openReceipt
  refine ends_findPost trivial (fun row chosen _ => ?_) stop
  refine ends_found (fun entry same => ?_) fun _ => stop _
  obtain ⟨stored,named⟩ := select_row traced.posts (chosen entry same)
  obtain rfl : entry.1 = id := by simpa [byId] using named
  refine ends_require (fun canceled => ?_) fun _ => stop _
  refine ends_scopedBranch trivial (fun scope => ?_) stop
  refine ends_branchOfPost trivial (fun target targeted => ?_) stop
  refine ends_findHqBranch trivial (fun hq head => ?_) stop
  refine ends_require (fun _ => ?_) fun _ => stop _
  refine ends_require (fun _ => ?_) fun _ => stop _
  refine ends_bind (ends_mono (findGroup_ends entry.1 (sourceOf entry.2 target) trivial) fun result after ended => ?_)
  obtain ⟨rfl,read⟩ := ended
  cases result with
  | error e => exact stop e
  | ok pair =>
    obtain ⟨group,orders⟩ := pair
    obtain ⟨rfl,rfl⟩ := read group orders rfl
    refine ends_require (fun valid => ?_) fun _ => stop _
    refine ends_bind (ends_mono (receiveOrders_ends traced) fun result s ended => ?_)
    obtain ⟨later,posts,done⟩ := ended
    cases result with
    | error e => exact ⟨later,fun _ answered => nomatch answered⟩
    | ok _ =>
      obtain ⟨received,others⟩ := done rfl
      refine ⟨later,fun receipt answered => ?_⟩
      cases answered
      exact {
        stored:=⟨entry.2,stored,targeted,rfl⟩,group:=rfl,orders:=rfl,received:=rfl
        head:=by
          rw [head,Option.some.injEq,beq_iff_eq]
          exact eq_comm
        inside:=fun o member => by
          have all := List.isEmpty_iff.mp valid
          have kept := List.filter_eq_nil_iff.mp all o member
          simpa using kept
        done:=received,others:=others,posts:=posts,traced:=later}

end Opening

-- Closing touches the posts of the group and nothing else.
structure Closing (s : World) (keys : List Nat) (t : World) : Prop where
  orders : t.orders = s.orders
  posts : t.posts.Keyed
  others : ∀ p,p ∉ keys → t.posts.row p = s.posts.row p

section Closes
variable {s t : World} {keys : List Nat}

theorem closing_put {p : Nat} {post : Post} {after : World} (closing : Closing s keys t) (inside : p ∈ keys) (orders : after.orders = t.orders)
    (posts : after.posts = t.posts.put p post) : Closing s keys after := by
  refine ⟨orders.trans closing.orders,posts ▸ put_keyed closing.posts _ _,fun q outside => ?_⟩
  have apart : p ≠ q := fun same => outside (same ▸ inside)
  rw [posts,row_put,if_neg apart,closing.others q outside]
theorem closing_update {p : Nat} {columns : Post → Post} {after : World} (closing : Closing s keys t) (inside : p ∈ keys)
    (orders : after.orders = t.orders) (posts : after.posts = (Write.update p columns).apply t.posts) : Closing s keys after := by
  refine ⟨orders.trans closing.orders,posts ▸ apply_keyed _ closing.posts,fun q outside => ?_⟩
  have apart : p ≠ q := fun same => outside (same ▸ inside)
  rw [posts,apply_row,Write.key,if_neg apart,closing.others q outside]
theorem closing_save {p : Nat} {post : Post} (closing : Closing s keys t) (inside : p ∈ keys) (fate : Fate) :
    Closing s keys (t.answer fate (.savePost p post)).1 := by
  rcases answer_world t fate (.savePost p post) with same | ⟨pick,same⟩
  · rwa [same]
  · rw [same]
    exact closing_put closing inside rfl rfl
theorem closing_columns {p : Nat} {columns : Post → Post} (closing : Closing s keys t) (inside : p ∈ keys) (fate : Fate) :
    Closing s keys (t.answer fate (.updatePost p columns)).1 := by
  rcases answer_world t fate (.updatePost p columns) with same | ⟨pick,same⟩
  · rwa [same]
  · rw [same]
    exact closing_update closing inside rfl rfl
theorem closePost_ends {entry : Nat × Post} (closing : Closing s keys t) (inside : entry.1 ∈ keys) :
    t.ends anyFate (closePost entry) (fun _ => True) fun _ after => Closing s keys after := by
  have reread : ∀ now,Closing s keys now →
      now.ends anyFate ((findPost (byId entry.1)).bind fun _ => pure ()) (fun _ => True) fun _ after => Closing s keys after :=
    fun now closing => ends_findPost trivial (fun _ _ _ => closing) fun _ => closing
  have retried : ∀ now,Closing s keys now → now.ends anyFate ((call (.updatePost entry.1 closed)).bind fun _ =>
      (findPost (byId entry.1)).bind fun _ => pure ()) (fun _ => True) fun _ after => Closing s keys after := by
    intro now closing
    refine ends_bind fun fate _ => ⟨trivial,?_⟩
    have updated : Closing s keys (now.answer fate (.updatePost entry.1 closed)).1 := closing_columns closing inside fate
    cases (now.answer fate (.updatePost entry.1 closed)).2 with
    | error e => exact updated
    | ok _ => exact reread _ updated
  refine ends_bind (ends_attempt fun fate _ => ⟨trivial,?_⟩)
  have saved : Closing s keys (t.answer fate (.savePost entry.1 (closed entry.2))).1 := closing_save closing inside fate
  cases (t.answer fate (.savePost entry.1 (closed entry.2))).2 with
  | ok _ => exact saved
  | error e => exact retried _ saved
theorem closePosts_ends {group : Table Post} (closing : Closing s (group.map (·.1)) t) :
    t.ends anyFate (forEach closePost group) (fun _ => True) fun _ after => Closing s (group.map (·.1)) after := by
  refine ends_forEach (fun left now => (∀ entry ∈ left,entry ∈ group) ∧ Closing s (group.map (·.1)) now) ?_ ⟨fun _ member => member,closing⟩
    fun _ ended => ended.2
  intro entry left now ⟨inside,closing⟩
  refine ends_mono (closePost_ends closing (List.mem_map_of_mem (inside entry List.mem_cons_self))) fun result after ended => ?_
  cases result with
  | error e => exact ended
  | ok _ => exact ⟨fun other member => inside other (List.mem_cons_of_mem entry member),ended⟩
-- Without a disturbance the first statement closes a post.
theorem closeAll_ends {group : Table Post} (closing : Closing s (group.map (·.1)) t) :
    t.ends undisturbed (forEach closePost group) (fun _ => True) fun result after => Closing s (group.map (·.1)) after ∧ result = .ok () := by
  refine ends_forEach (fun left now => (∀ entry ∈ left,entry ∈ group) ∧ Closing s (group.map (·.1)) now) ?_ ⟨fun _ member => member,closing⟩
    fun _ ended => ⟨ended.2,rfl⟩
  intro entry left now ⟨inside,closing⟩
  refine ends_bind (ends_attempt fun fate fine => ⟨trivial,?_⟩)
  obtain ⟨pick,rfl⟩ := fine
  exact ⟨fun other member => inside other (List.mem_cons_of_mem entry member),
    closing_save closing (List.mem_map_of_mem (inside entry List.mem_cons_self)) (.goes pick)⟩

end Closes

-- An order that is back with its courier, in a post that is on its way.
def SentBack (t : World) (courierId o : Nat) : Prop :=
  ∃ order p,t.order o = some order ∧ order.status = .cancelledSent ∧ order.canceledPostId = some p ∧ t.underway p ∧
    order.courierId = some courierId
def Waiting (t : World) (o : Nat) : Prop := ∃ order,t.order o = some order ∧ order.status = .cancelledSent
structure Requeued (s : World) (keys : List Nat) (courierId : Nat) (done : List Nat) (t : World) : Prop where
  posts : t.posts.Keyed
  orders : t.orders.Keyed
  kept : ∀ p,p ∉ keys → s.underway p → t.underway p
  back : ∀ o ∈ done,SentBack t courierId o
  others : ∀ o,o ∉ done → t.order o = s.order o

section Requeues
variable {s t : World} {keys done : List Nat} {courierId : Nat}

theorem requeued_post {p : Nat} {post : Post} (after : World) (requeued : Requeued s keys courierId done t) (orders : after.orders = t.orders)
    (posts : after.posts = t.posts.put p post) (canceled : post.status = .canceled) :
    Requeued s keys courierId done after ∧ after.underway p := by
  obtain ⟨here,kept⟩ := underway_put posts canceled
  have same : ∀ o,after.order o = t.order o := fun o => by
    rw [World.order,orders]
    rfl
  refine ⟨⟨posts ▸ put_keyed requeued.posts _ _,orders ▸ requeued.orders,fun q outside underway => kept q (requeued.kept q outside underway),
    fun o inside => ?_,fun o new => (same o).trans (requeued.others o new)⟩,here⟩
  obtain ⟨order,q,stored,status,named,underway,courier⟩ := requeued.back o inside
  exact ⟨order,q,(same o).trans stored,status,named,kept q underway,courier⟩
theorem requeued_waiting (requeued : Requeued s keys courierId done t) {o : Nat} (waiting : Waiting s o) : Waiting t o := by
  by_cases inside : o ∈ done
  · obtain ⟨order,_,stored,status,-⟩ := requeued.back o inside
    exact ⟨order,stored,status⟩
  · rw [Waiting,requeued.others o inside]
    exact waiting
theorem requeued_order {p o : Nat} (dto : UpdateDto) (requeued : Requeued s keys courierId done t) (waiting : Waiting s o) (underway : t.underway p)
    (status : dto.status = some .cancelledSent) (post : dto.canceledPostId = some (some p)) (courier : dto.courierId = some (some courierId))
    (pick : Nat) (requesterId : Option Nat) : (t.answer (.goes pick) (.updateOrder o dto requesterId)).2 = .ok () ∧
      Requeued s keys courierId (done ++ [o]) (t.answer (.goes pick) (.updateOrder o dto requesterId)).1 := by
  obtain ⟨order,stored,sent⟩ := requeued_waiting requeued waiting
  have valid : isValidStatusTransition order.status (dto.status.getD order.status) = true := by
    rw [status,sent]
    rfl
  have carried : t.answer (.goes pick) (.updateOrder o dto requesterId) =
      ({t with orders:=t.orders.put o (saved t.lookups requesterId dto order)},.ok ()) := update_done requesterId stored valid
  rw [carried]
  refine ⟨rfl,⟨requeued.posts,put_keyed requeued.orders _ _,requeued.kept,fun other inside => ?_,fun other new => ?_⟩⟩
  · by_cases own : other = o
    · exact ⟨_,p,by rw [order_saved stored,if_pos own],by simp [status],by simp [post],underway,by simp [courier]⟩
    · obtain ⟨order',q,there,facts⟩ := requeued.back other (by simpa [own] using inside)
      exact ⟨order',q,by rw [order_saved stored,if_neg own,there],facts⟩
  · simp only [List.mem_append,List.mem_singleton,not_or] at new
    rw [order_saved stored,if_neg new.2,requeued.others other new.1]

theorem orInsert_goes {row : Option (Nat × Post)} {fresh : Post} (requeued : Requeued s keys courierId done t) (canceled : fresh.status = .canceled)
    (known : ∀ entry,row = some entry → entry.2.status = .canceled ∧ t.underway entry.1) :
    t.ends undisturbed (orInsert row fresh) (fun _ => True) fun result after => Requeued s keys courierId done after ∧
      ∃ post,result = .ok post ∧ post.2.status = .canceled ∧ after.underway post.1 := by
  cases row with
  | some entry => exact ⟨requeued,entry,rfl,known entry rfl⟩
  | none =>
    refine ends_bind fun fate fine => ⟨trivial,?_⟩
    obtain ⟨pick,rfl⟩ := fine
    obtain ⟨later,underway⟩ := requeued_post (t.answer (.goes pick) (.insertPost fresh)).1 requeued rfl rfl canceled
    exact ⟨later,_,rfl,canceled,underway⟩
theorem findPost_goes (sel : Nat → Post → Bool) : t.ends undisturbed (findPost sel) (fun _ => True) fun result after => after = t ∧
    ∃ row,result = .ok row ∧ ∀ entry,row = some entry → entry ∈ t.posts.select sel := by
  intro fate fine
  obtain ⟨pick,rfl⟩ := fine
  exact ⟨trivial,rfl,_,rfl,fun entry same => List.mem_of_getElem? same⟩
theorem requeueGroup_ends {requester : Requester} {receipt : Receipt} (near : receipt.isHqReceipt = false)
    (courier : receipt.post.courierId = courierId) {group : (Nat × Option Nat) × List ((Nat × Option Nat) × Nat × Order)}
    (waiting : ∀ item ∈ group.2,Waiting s item.2.1) (requeued : Requeued s keys courierId done t) :
    t.ends undisturbed (requeueGroup requester receipt group) (fun _ => True) fun result after =>
      (∃ p,result = .ok p) ∧ Requeued s keys courierId (done ++ group.2.map (·.2.1)) after := by
  obtain ⟨⟨branchId,regionId⟩,items⟩ := group
  refine ends_bind (ends_mono (findPost_goes _) fun result now ended => ?_)
  obtain ⟨same,row,rfl,chosen⟩ := ended
  subst same
  refine ends_bind (ends_mono (orInsert_goes requeued rfl fun entry same => ?_) fun result now ended => ?_)
  · obtain ⟨stored,suits⟩ := select_row requeued.posts (chosen entry same)
    have canceled : entry.2.status = .canceled := by
      simp only [returnPostOf,Bool.and_eq_true,beq_iff_eq] at suits
      exact suits.2
    exact ⟨canceled,entry.2,stored,canceled⟩
  obtain ⟨requeued,post,rfl,canceled,underway⟩ := ended
  refine ends_forEach_bind (fun left now => ∃ front,front ++ left = items.map (·.2) ∧ Requeued s keys courierId (done ++ front.map (·.1)) now ∧
    now.underway post.1) ?_ ⟨[],rfl,by simpa using requeued,underway⟩ fun now ended => ?_
  · intro entry left now ⟨front,whole,requeued,underway⟩
    refine ends_update fun fate fine => ⟨trivial,?_⟩
    obtain ⟨pick,rfl⟩ := fine
    have listed : entry ∈ items.map (·.2) := by
      rw [← whole]
      simp
    obtain ⟨item,inside,rfl⟩ := List.mem_map.mp listed
    obtain ⟨answered,later⟩ := requeued_order (returned receipt post.1 branchId) requeued (waiting item inside) underway rfl rfl
      (by simp [returned,near,courier]) pick (some requester.id)
    rw [answered]
    refine ⟨front ++ [item.2],by simpa using whole,by simpa using later,?_⟩
    rw [World.underway,answer_posts (.goes pick) rfl]
    exact underway
  · obtain ⟨front,whole,requeued,underway⟩ := ended
    refine ends_bind fun fate fine => ⟨trivial,?_⟩
    obtain ⟨pick,rfl⟩ := fine
    rw [List.append_nil] at whole
    subst whole
    rw [List.map_map] at requeued
    refine ⟨⟨post.1,rfl⟩,(requeued_post (now.answer (.goes pick) (.savePost post.1 _)).1 requeued rfl rfl ?_).1⟩
    exact canceled
theorem groupBy_items [BEq κ] [LawfulBEq κ] {key : α → κ} {items : List α} {item : α} :
    (∃ group ∈ groupBy key items,item ∈ group.2) ↔ item ∈ items := by
  constructor
  · intro ⟨group,grouped,inside⟩
    rw [groupBy_parts grouped] at inside
    exact (List.mem_filter.mp inside).1
  · exact groupBy_covers key
theorem requeueGroups_ends {requester : Requester} {receipt : Receipt} (near : receipt.isHqReceipt = false)
    (courier : receipt.post.courierId = courierId) {groups : List ((Nat × Option Nat) × List ((Nat × Option Nat) × Nat × Order))}
    (waiting : ∀ group ∈ groups,∀ item ∈ group.2,Waiting s item.2.1) (start : Requeued s keys courierId [] t) :
    t.ends undisturbed (collect (requeueGroup requester receipt) groups) (fun _ => True) fun result after =>
      (∃ ps,result = .ok ps) ∧ Requeued s keys courierId (groups.flatMap fun group => group.2.map (·.2.1)) after := by
  refine ends_collect (fun _ left now => ∃ front,front ++ left = groups ∧
    Requeued s keys courierId (front.flatMap fun group => group.2.map (·.2.1)) now) ?_ [] ⟨[],rfl,start⟩ ?_
  · intro _ group left now ⟨front,whole,requeued⟩
    have listed : group ∈ groups := by
      rw [← whole]
      simp
    refine ends_mono (requeueGroup_ends near courier (waiting group listed) requeued) fun result after ended => ?_
    obtain ⟨⟨p,rfl⟩,later⟩ := ended
    exact ⟨front ++ [group],by simpa using whole,by simpa using later⟩
  · intro ps now ⟨front,whole,requeued⟩
    obtain rfl : front = groups := by simpa using whole
    exact ⟨⟨ps,rfl⟩,requeued⟩
-- A branch requeues all that it has not received.
theorem requeueRest_ends {requester : Requester} {receipt : Receipt} (near : receipt.isHqReceipt = false)
    (courier : receipt.post.courierId = courierId) (waiting : ∀ entry ∈ receipt.remaining,Waiting s entry.1)
    (start : Requeued s keys courierId [] t) :
    t.ends undisturbed (requeueRest requester receipt) (fun _ => True) fun result after =>
      (∃ ps,result = .ok ps) ∧ ∃ done,(∀ o,o ∈ done ↔ o ∈ receipt.remaining.map (·.1)) ∧ Requeued s keys courierId done after := by
  unfold requeueRest
  split
  next empty => exact ⟨⟨[],rfl⟩,[],by simp [List.isEmpty_iff.mp empty],start⟩
  next =>
    have fallback : findFallbackBranch receipt = pure (some receipt.targetBranchId) := by
      unfold findFallbackBranch
      rw [near]
      rfl
    have branch : ∀ order,returnBranch receipt (some receipt.targetBranchId) order =
        some (receipt.post.branchId.getD receipt.targetBranchId) := fun order => by
      unfold returnBranch
      rw [near]
      rfl
    rw [fallback]
    change t.ends undisturbed (requeueUnreceivedCanceledOrders requester receipt (some receipt.targetBranchId)) _ _
    unfold requeueUnreceivedCanceledOrders
    rw [if_neg (by simp [branch])]
    have items : (receipt.remaining.filterMap fun entry => (returnBranch receipt (some receipt.targetBranchId) entry.2).map fun branchId =>
          ((branchId,entry.2.regionId.or receipt.post.regionId),entry)) = receipt.remaining.map fun entry =>
        ((receipt.post.branchId.getD receipt.targetBranchId,entry.2.regionId.or receipt.post.regionId),entry) := by
      simp [branch]
    rw [items]
    refine ends_mono (requeueGroups_ends near courier (fun group grouped item inside => ?_) start) fun result after ended => ?_
    · obtain ⟨entry,listed,rfl⟩ := List.mem_map.mp (groupBy_items.mp ⟨group,grouped,inside⟩)
      exact waiting entry listed
    · refine ⟨ended.1,_,fun o => ?_,ended.2⟩
      simp only [List.mem_flatMap,List.mem_map]
      constructor
      · intro ⟨group,grouped,item,inside,same⟩
        obtain ⟨entry,listed,rfl⟩ := List.mem_map.mp (groupBy_items.mp ⟨group,grouped,inside⟩)
        exact ⟨entry,listed,same⟩
      · intro ⟨entry,listed,same⟩
        have member := List.mem_map_of_mem (f:=fun entry : Nat × Order =>
          ((receipt.post.branchId.getD receipt.targetBranchId,entry.2.regionId.or receipt.post.regionId),entry)) listed
        obtain ⟨group,grouped,inside⟩ := groupBy_covers (·.1) member
        exact ⟨group,grouped,_,inside,same⟩

end Requeues
end Elchi.Logistics
