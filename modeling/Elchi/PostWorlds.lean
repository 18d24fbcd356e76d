import Elchi.PostDispatch
import Elchi.DepotParts
namespace Elchi.Logistics
open RowLock Orders Programs

-- An order as order.update stores it.
def saved (lookups : Lookups) (requesterId : Option Nat) (dto : UpdateDto) (order : Order) : Order :=
  saveOrder lookups.now (updatedOrder lookups requesterId dto order) order

section Columns
variable (lookups : Lookups) (requesterId : Option Nat) (dto : UpdateDto) (order : Order)

theorem saved_parts : ∃ type branch courier time actor stamp,saved lookups requesterId dto order = {dto.assign order with
    holderType:=type,holderBranchId:=branch,holderCourierId:=courier,lastHandoverAt:=time,lastHandoverBy:=actor,updatedAt:=stamp} := by
  obtain ⟨type,branch,courier,time,actor,same⟩ := updatedOrder_parts lookups requesterId dto order
  obtain ⟨stamp,stored⟩ := saveOrder_parts lookups.now (updatedOrder lookups requesterId dto order) order
  exact ⟨type,branch,courier,time,actor,stamp,by rw [saved,stored,same]⟩
@[simp] theorem saved_status : (saved lookups requesterId dto order).status = dto.status.getD order.status := by
  obtain ⟨_,_,_,_,_,_,same⟩ := saved_parts lookups requesterId dto order
  rw [same]
  rfl
@[simp] theorem saved_postId : (saved lookups requesterId dto order).postId = dto.postId.getD order.postId := by
  obtain ⟨_,_,_,_,_,_,same⟩ := saved_parts lookups requesterId dto order
  rw [same]
  rfl
@[simp] theorem saved_canceledPostId : (saved lookups requesterId dto order).canceledPostId = dto.canceledPostId.getD order.canceledPostId := by
  obtain ⟨_,_,_,_,_,_,same⟩ := saved_parts lookups requesterId dto order
  rw [same]
  rfl
@[simp] theorem saved_returnRequested : (saved lookups requesterId dto order).returnRequested = dto.returnRequested.getD order.returnRequested := by
  obtain ⟨_,_,_,_,_,_,same⟩ := saved_parts lookups requesterId dto order
  rw [same]
  rfl
@[simp] theorem saved_totalPrice : (saved lookups requesterId dto order).totalPrice = dto.totalPrice.getD order.totalPrice := by
  obtain ⟨_,_,_,_,_,_,same⟩ := saved_parts lookups requesterId dto order
  rw [same]
  rfl
@[simp] theorem saved_courierId : (saved lookups requesterId dto order).courierId = dto.courierId.getD order.courierId := by
  obtain ⟨_,_,_,_,_,_,same⟩ := saved_parts lookups requesterId dto order
  rw [same]
  rfl
@[simp] theorem saved_assignedAt : (saved lookups requesterId dto order).assignedAt = dto.assignedAt.getD order.assignedAt := by
  obtain ⟨_,_,_,_,_,_,same⟩ := saved_parts lookups requesterId dto order
  rw [same]
  rfl
@[simp] theorem saved_branchId : (saved lookups requesterId dto order).branchId = dto.branchId.getD order.branchId := by
  obtain ⟨_,_,_,_,_,_,same⟩ := saved_parts lookups requesterId dto order
  rw [same]
  rfl
@[simp] theorem saved_live (id : Nat) : World.live id (saved lookups requesterId dto order) = World.live id order := by
  obtain ⟨_,_,_,_,_,_,same⟩ := saved_parts lookups requesterId dto order
  rw [same]
  rfl

end Columns

theorem order_parts {w : World} {id : Nat} {order : Order} :
    w.order id = some order ↔ w.orders.row id = some order ∧ World.live id order = true := by
  simp [World.order,Option.filter_eq_some_iff]
theorem update_cases (w : World) (id : Nat) (dto : UpdateDto) (requesterId : Option Nat) :
    (∃ e,w.updateOrder id dto requesterId = (w,.error e)) ∨
    ∃ order,w.order id = some order ∧ isValidStatusTransition order.status (dto.status.getD order.status) = true ∧
      w.updateOrder id dto requesterId = ({w with orders:=w.orders.put id (saved w.lookups requesterId dto order)},.ok ()) := by
  unfold World.updateOrder
  cases stored : w.order id with
  | none => exact .inl ⟨_,rfl⟩
  | some order =>
    dsimp only
    cases passed : Orders.updateOrder w.lookups requesterId dto order with
    | error e => exact .inl ⟨_,rfl⟩
    | ok updated =>
      obtain ⟨rfl,valid⟩ := updateOrder_parts passed
      exact .inr ⟨order,rfl,by simpa using valid,rfl⟩
theorem update_refused {w : World} {id : Nat} {dto : UpdateDto} {order : Order} (requesterId : Option Nat) (stored : w.order id = some order)
    (invalid : isValidStatusTransition order.status (dto.status.getD order.status) = false) :
    ∃ e,w.updateOrder id dto requesterId = (w,.error e) := by
  rcases update_cases w id dto requesterId with refused | ⟨other,found,valid,-⟩
  · exact refused
  · rw [stored] at found
    cases found
    rw [invalid] at valid
    cases valid
theorem update_done {w : World} {id : Nat} {dto : UpdateDto} {order : Order} (requesterId : Option Nat) (stored : w.order id = some order)
    (valid : isValidStatusTransition order.status (dto.status.getD order.status) = true) :
    w.updateOrder id dto requesterId = ({w with orders:=w.orders.put id (saved w.lookups requesterId dto order)},.ok ()) := by
  have passed : Orders.updateOrder w.lookups requesterId dto order = .ok (updatedOrder w.lookups requesterId dto order) := by
    unfold Orders.updateOrder
    dsimp only
    rw [if_pos (by simpa using valid)]
  rw [World.updateOrder,stored]
  dsimp only
  rw [passed]
  rfl

-- The orders after an update that is carried out: one has changed.
theorem order_saved {w : World} {id : Nat} {order : Order} (stored : w.order id = some order) (requesterId : Option Nat) (dto : UpdateDto)
    (other : Nat) :
    World.order {w with orders:=w.orders.put id (saved w.lookups requesterId dto order)} other =
      if other = id then some (saved w.lookups requesterId dto order) else w.order other := by
  obtain ⟨-,alive⟩ := order_parts.mp stored
  unfold World.order
  rw [row_put]
  by_cases same : other = id
  · subst same
    simp [Option.filter_some,alive]
  · simp [same,Ne.symm same]
theorem mem_list {w : World} {sel : Nat → Order → Bool} {entry : Nat × Order} (keyed : w.orders.Keyed) (member : entry ∈ w.list sel) :
    w.order entry.1 = some entry.2 ∧ sel entry.1 entry.2 = true := by
  have inside := List.mem_reverse.mp (List.mem_of_mem_take member)
  obtain ⟨stored,chosen⟩ := select_row keyed inside
  obtain ⟨live,fits⟩ := Bool.and_eq_true_iff.mp chosen
  exact ⟨order_parts.mpr ⟨stored,live⟩,fits⟩

theorem row_removed (posts : Table Post) (id key : Nat) :
    Table.row (posts.select fun k _ => k != id) key = if key = id then none else posts.row key := by
  induction posts with
  | nil => simp [Table.select]
  | cons entry rest ih =>
    rw [row_cons]
    unfold Table.select at ih ⊢
    by_cases gone : entry.1 = id
    · rw [List.filter_cons_of_neg (by simp [gone]),ih]
      by_cases asked : key = id
      · simp [asked]
      · simp [asked,gone,Ne.symm asked]
    · rw [List.filter_cons_of_pos (by simpa using gone),row_cons,ih]
      by_cases here : entry.1 = key
      · simp [here,here ▸ gone]
      · simp [here]

-- What one call leaves behind and answers.
theorem answer_cases (w : World) (fate : Fate) (action : Action) : (∃ e,w.answer fate action = (w,.error e)) ∨
    (∃ pick,w.answer fate action = w.carry pick action) ∨ ∃ pick e,w.answer fate action = ((w.carry pick action).1,.error e) := by
  cases fate with
  | goes pick => exact .inr (.inl ⟨pick,rfl⟩)
  | lost pick => exact .inr (.inr ⟨pick,_,rfl⟩)
  | fails => exact .inl ⟨_,rfl⟩
def Action.onOrders : Action → Bool
  | .updateOrder _ _ _ => true
  | _ => false
theorem carry_orders (w : World) (pick : Nat) {action : Action} (other : action.onOrders = false) : (w.carry pick action).1.orders = w.orders := by
  cases action with
  | updateOrder _ _ _ => cases other
  | _ => rfl
theorem answer_orders (w : World) (fate : Fate) {action : Action} (other : action.onOrders = false) : (w.answer fate action).1.orders = w.orders := by
  rcases answer_cases w fate action with ⟨e,same⟩ | ⟨pick,same⟩ | ⟨pick,e,same⟩
  · rw [same]
  · rw [same,carry_orders w pick other]
  · rw [same,carry_orders w pick other]
theorem answer_update (w : World) (fate : Fate) (id : Nat) (dto : UpdateDto) (requesterId : Option Nat) :
    (w.answer fate (.updateOrder id dto requesterId)).1 = if fate = .fails then w else (w.updateOrder id dto requesterId).1 := by
  cases fate with
  | goes pick => rfl
  | lost pick => rfl
  | fails => rfl
def Action.onPosts : Action → Bool
  | .insertPost _ => true
  | .savePost _ _ => true
  | .updatePost _ _ => true
  | .removePost _ => true
  | _ => false
theorem carry_posts (w : World) (pick : Nat) {action : Action} (other : action.onPosts = false) :
    (w.carry pick action).1.posts = w.posts ∧ (w.carry pick action).1.nextPost = w.nextPost := by
  cases action with
  | updateOrder id dto requesterId =>
    rcases update_cases w id dto requesterId with ⟨e,same⟩ | ⟨order,-,-,same⟩
    · simp [World.carry,same]
    · simp [World.carry,same]
  | insertPost _ => cases other
  | savePost _ _ => cases other
  | updatePost _ _ => cases other
  | removePost _ => cases other
  | _ => exact ⟨rfl,rfl⟩

theorem answer_world (w : World) (fate : Fate) (action : Action) :
    (w.answer fate action).1 = w ∨ ∃ pick,(w.answer fate action).1 = (w.carry pick action).1 := by
  rcases answer_cases w fate action with ⟨e,same⟩ | ⟨pick,same⟩ | ⟨pick,e,same⟩
  · exact .inl (by rw [same])
  · exact .inr ⟨pick,by rw [same]⟩
  · exact .inr ⟨pick,by rw [same]⟩
theorem answer_ok {w : World} {fate : Fate} {action : Action} {a : Reply action} (answered : (w.answer fate action).2 = .ok a) :
    ∃ pick,w.answer fate action = w.carry pick action := by
  cases fate with
  | goes pick => exact ⟨pick,rfl⟩
  | lost pick => cases answered
  | fails => cases answered
theorem answer_refused {w : World} {action : Action} (refused : ∀ pick,∃ e,w.carry pick action = (w,.error e)) (fate : Fate) :
    ∃ e,w.answer fate action = (w,.error e) := by
  rcases answer_cases w fate action with same | ⟨pick,same⟩ | ⟨pick,e,same⟩
  · exact same
  · rw [same]
    exact refused pick
  · obtain ⟨_,carried⟩ := refused pick
    exact ⟨e,by rw [same,carried]⟩

abbrev World.ends (allowed : Fate → Prop) (op : Operation α) (always : World → Prop) (Q : Except RpcError α → World → Prop) (w : World) : Prop :=
  op.Ends World.answer allowed always Q w
abbrev World.run (w : World) (op : Operation α) (fates : List Fate) : World × Except RpcError α × List Fate :=
  op.exec World.answer (.goes 0) fates w
def anyFate (_ : Fate) : Prop := True
def undisturbed (fate : Fate) : Prop := ∃ pick,fate = .goes pick

section Rules
variable {allowed : Fate → Prop} {α β : Type} {always : World → Prop} {Q : Except RpcError β → World → Prop} {w : World}

theorem run_ends {op : Operation β} (ends : World.ends anyFate op always Q w) (fates : List Fate) : Q (w.run op fates).2.1 (w.run op fates).1 :=
  ends_exec ends (fun _ _ => trivial) trivial
theorem run_always {op : Operation β} (ends : World.ends anyFate op always Q w) (now : always w) (fates : List Fate) :
    always (w.run op fates).1 :=
  ends_always ends (fun _ _ => trivial) trivial now
theorem ends_steps {R : World → World → Prop} {op : Operation α} {f : α → Operation β} (steps : op.Steps World.answer allowed always R)
    (now : always w) (each : ∀ a after,always after → R w after → World.ends allowed (f a) always Q after)
    (stop : ∀ e after,always after → Q (.error e) after) : World.ends allowed (op.bind f) always Q w := by
  refine ends_bind (ends_mono (steps w now) fun result after moved => ?_)
  cases result with
  | ok a => exact each a after moved.1 moved.2
  | error e => exact stop e after moved.1
-- A call that leaves the world as it is.
theorem ends_read {action : Action} {f : Reply action → Operation β} (reads : ∀ pick,(w.carry pick action).1 = w) (now : always w)
    (each : ∀ pick a,(w.carry pick action).2 = .ok a → World.ends allowed (f a) always Q w) (stop : ∀ e,Q (.error e) w) :
    World.ends allowed ((call action).bind f) always Q w := by
  intro fate _
  have same : (w.answer fate action).1 = w := (answer_world w fate action).elim id fun ⟨pick,same⟩ => same.trans (reads pick)
  rw [same]
  refine ⟨now,?_⟩
  cases answered : (w.answer fate action).2 with
  | error e => exact stop e
  | ok a =>
    obtain ⟨pick,carried⟩ := answer_ok answered
    exact each pick a (by rw [← carried,answered])
theorem ends_findPost {f : Option (Nat × Post) → Operation β} {sel : Nat → Post → Bool} (now : always w)
    (each : ∀ row,(∀ entry,row = some entry → entry ∈ w.posts.select sel) → (row = none → w.posts.select sel = []) →
      World.ends allowed (f row) always Q w) (stop : ∀ e,Q (.error e) w) : World.ends allowed ((findPost sel).bind f) always Q w := by
  refine ends_read (fun _ => rfl) now (fun pick row chosen => ?_) stop
  obtain rfl : choose pick (w.posts.select sel) = row := Except.ok.inj chosen
  refine each _ (fun entry same => List.mem_of_getElem? same) fun none => ?_
  by_contra rows
  have few : pick % (w.posts.select sel).length < (w.posts.select sel).length := Nat.mod_lt _ (List.length_pos_iff.mpr rows)
  simp only [choose,List.getElem?_eq_none_iff] at none
  omega
theorem ends_findOrderById {f : Order → Operation β} {id : Nat} (now : always w)
    (each : ∀ order,w.order id = some order → World.ends allowed (f order) always Q w) (stop : ∀ e,Q (.error e) w) :
    World.ends allowed ((findOrderById id).bind f) always Q w := by
  refine ends_read (fun _ => rfl) now (fun pick order found => ?_) stop
  cases stored : w.order id with
  | none => simp [World.carry,stored] at found
  | some row => exact each order (by simpa [World.carry,stored] using found)
theorem ends_findOrders {f : Table Order → Operation β} {sel : Nat → Order → Bool} (now : always w)
    (each : World.ends allowed (f (w.list sel)) always Q w) (stop : ∀ e,Q (.error e) w) :
    World.ends allowed ((findOrders sel).bind f) always Q w := by
  refine ends_read (fun _ => rfl) now (fun pick rows found => ?_) stop
  obtain rfl : w.list sel = rows := Except.ok.inj found
  exact each
-- Reading the orders one by one.
theorem ends_readAll {γ : Type} {body : Nat → Operation γ} {f : List γ → Operation β} {ids : List Nat} (R : Nat → γ → Prop) (now : always w)
    (read : ∀ id,World.ends allowed (body id) always (fun result after => after = w ∧ ∀ y,result = .ok y → R id y) w)
    (each : ∀ ys,List.Forall₂ R ids ys → World.ends allowed (f ys) always Q w) (stop : ∀ e,Q (.error e) w) :
    World.ends allowed ((collect body ids).bind f) always Q w := by
  refine ends_collect_bind (fun ys rest after => after = w ∧ ∃ front,front ++ rest = ids ∧ List.Forall₂ R front ys) ?_ ⟨rfl,[],rfl,.nil⟩ ?_
  · rintro ys id rest after ⟨rfl,front,whole,done⟩
    refine ends_mono (read id) fun result later ends => ?_
    obtain ⟨rfl,reads⟩ := ends
    cases result with
    | error e => exact stop e
    | ok y => exact ⟨rfl,front ++ [id],by simpa using whole,List.rel_append done (.cons (reads y rfl) .nil)⟩
  · rintro ys after ⟨rfl,front,whole,done⟩
    obtain rfl : front = ids := by simpa using whole
    exact each ys done
theorem ends_findEach {f : Table Order → Operation β} {ids : List Nat} (now : always w)
    (each : ∀ rows : Table Order,rows.map (·.1) = ids → (∀ entry ∈ rows,w.order entry.1 = some entry.2) →
      World.ends allowed (f rows) always Q w) (stop : ∀ e,Q (.error e) w) : World.ends allowed ((findEach ids).bind f) always Q w := by
  refine ends_readAll (fun id (entry : Nat × Order) => entry.1 = id ∧ w.order id = some entry.2) now (fun id => ?_) (fun rows read => ?_) stop
  · exact ends_findOrderById now (fun order stored => ⟨rfl,by rintro _ ⟨⟩; exact ⟨rfl,stored⟩⟩) fun e => ⟨rfl,fun _ answered => nomatch answered⟩
  · have both : rows.map (·.1) = ids ∧ ∀ entry ∈ rows,w.order entry.1 = some entry.2 := by
      clear each
      induction read with
      | nil => simp
      | cons first _ ih =>
        obtain ⟨rfl,stored⟩ := first
        exact ⟨by simp [ih.1],by simpa [stored] using fun id order member => ih.2 (id,order) member⟩
    exact each rows both.1 both.2

end Rules

end Elchi.Logistics
