import Elchi.CountedCalls
import Elchi.OrderEpochs
import Elchi.PostWorlds
namespace Elchi.Logistics
open RowLock Orders Programs

-- What an assignment to a courier changes of an order.
structure Place where
  status : OrderStatus
  courierId : Option Nat
  assignedAt : Option Nat
  postId : Option Nat
deriving DecidableEq, Repr
def placeOf (order : Order) : Place := ⟨order.status,order.courierId,order.assignedAt,order.postId⟩
def World.place (w : World) (id : Nat) : Option Place := (w.order id).map placeOf
def placed (dto : UpdateDto) (place : Place) : Place :=
  ⟨dto.status.getD place.status,dto.courierId.getD place.courierId,dto.assignedAt.getD place.assignedAt,dto.postId.getD place.postId⟩

abbrev World.takes (fates : List Fate) (n : Nat) (op : Operation α) (w : World) (Q : Except RpcError α → World → Prop) : Prop :=
  op.Takes World.answer (.goes 0) fates n w Q
abbrev AllGo (n : Nat) (fates : List Fate) : Prop := Clear (.goes 0) undisturbed n fates

section Calls
variable {w : World} {fates : List Fate} {id : Nat} {dto : UpdateDto} {place : Place}

theorem update_place (dto : UpdateDto) (requesterId : Option Nat) (here : w.place id = some place)
    (valid : isValidStatusTransition place.status (dto.status.getD place.status) = true) :
    ∃ after,w.updateOrder id dto requesterId = (after,.ok ()) ∧ after.posts = w.posts ∧
      ∀ other,after.place other = if other = id then some (placed dto place) else w.place other := by
  obtain ⟨order,stored,rfl⟩ := Option.map_eq_some_iff.mp here
  refine ⟨_,update_done requesterId stored valid,rfl,fun other => ?_⟩
  unfold World.place
  rw [order_saved stored]
  by_cases same : other = id
  · simp [same,placeOf,placed]
  · simp [same]
theorem update_stays (dto : UpdateDto) (requesterId : Option Nat) (here : w.place id = some place)
    (invalid : isValidStatusTransition place.status (dto.status.getD place.status) = false) :
    ∃ e,w.updateOrder id dto requesterId = (w,.error e) := by
  obtain ⟨order,stored,rfl⟩ := Option.map_eq_some_iff.mp here
  exact update_refused requesterId stored invalid

theorem takes_goes {action : Action} {Q : Except RpcError (Reply action) → World → Prop} {after : World}
    {result : Except RpcError (Reply action)} (goes : undisturbed (fates.headD (.goes 0))) (carried : ∀ pick,w.carry pick action = (after,result))
    (holds : Q result after) : w.takes fates 1 (call action) Q := by
  obtain ⟨pick,same⟩ := goes
  refine takes_call ?_
  rw [same]
  change Q (w.carry pick action).2 (w.carry pick action).1
  rw [carried pick]
  exact holds
-- A call that is not carried out, or whose answer is lost.
theorem takes_breaks {action : Action} (breaks : ¬undisturbed (fates.headD (.goes 0))) : w.takes fates 1 (call action) fun result after =>
    result = .error unavailable ∧
    (fates.headD (.goes 0) = .fails ∧ after = w ∨ fates.headD (.goes 0) ≠ .fails ∧ ∃ pick,after = (w.carry pick action).1) := by
  refine takes_call ?_
  cases same : fates.headD (.goes 0) with
  | goes pick => exact absurd ⟨pick,same⟩ breaks
  | lost pick => exact ⟨rfl,.inr ⟨nofun,pick,rfl⟩⟩
  | fails => exact ⟨rfl,.inl ⟨rfl,rfl⟩⟩
theorem update_goes {requesterId : Option Nat} {Q : Except RpcError Unit → World → Prop} (goes : undisturbed (fates.headD (.goes 0)))
    (here : w.place id = some place) (valid : isValidStatusTransition place.status (dto.status.getD place.status) = true)
    (holds : ∀ after,after.posts = w.posts → (∀ other,after.place other = if other = id then some (placed dto place) else w.place other) →
      Q (.ok ()) after) : w.takes fates 1 (updateOrder id dto requesterId) Q := by
  obtain ⟨after,same,posts,places⟩ := update_place dto requesterId here valid
  exact takes_goes goes (fun _ => same) (holds after posts places)

end Calls

-- Some orders have come to one place, and all else is as it was.
structure Puts (keys : List Nat) (place : Place) (s after : World) : Prop where
  posts : after.posts = s.posts
  places : ∀ id,after.place id = if id ∈ keys then some place else s.place id
theorem Puts.append {keys later : List Nat} {place : Place} {s mid after : World} (first : Puts keys place s mid)
    (second : Puts later place mid after) :
    Puts (keys ++ later) place s after := by
  refine ⟨second.posts.trans first.posts,fun id => ?_⟩
  rw [second.places,first.places]
  by_cases inside : id ∈ later
  · simp [inside]
  · simp [inside]

def updates (entries : Table Order) : Nat := (entries.map fun entry => if entry.2.status = .new then 2 else 1).sum
def onTheWay (now courierId targetId : Nat) : Place := ⟨.onTheRoad,some courierId,some now,some targetId⟩
def departure (now courierId targetId : Nat) : UpdateDto :=
  {courierId:=some (some courierId),assignedAt:=some (some now),status:=some .onTheRoad,postId:=some (some targetId)}
structure Assignable (s : World) (entry : Nat × Order) : Prop where
  here : s.place entry.1 = some (placeOf entry.2)
  status : entry.2.status = .new ∨ entry.2.status = .received ∨ entry.2.status = .waiting

theorem Assignable.departs {s : World} {entry : Nat × Order} (assignable : Assignable s entry) (old : entry.2.status ≠ .new) :
    isValidStatusTransition (placeOf entry.2).status .onTheRoad = true := by
  rcases assignable.status with same | same | same
  · exact absurd same old
  · rw [placeOf,same]
    rfl
  · rw [placeOf,same]
    rfl
theorem Assignable.leaves {s : World} {entry : Nat × Order} (assignable : Assignable s entry) : entry.2.status ≠ .onTheRoad := by
  rcases assignable.status with same | same | same
  · simp [same]
  · simp [same]
  · simp [same]

section Assigning
variable {now requesterId courierId targetId : Nat} {s : World} {fates : List Fate} {entry : Nat × Order}

theorem assign_goes (assignable : Assignable s entry) (goes : AllGo (updates [entry]) fates) :
    s.takes fates (updates [entry]) (assignOrder now requesterId courierId targetId entry) fun result after =>
      result = .ok () ∧ Puts [entry.1] (onTheWay now courierId targetId) s after := by
  by_cases new : entry.2.status = .new
  · have two : updates [entry] = 1+1 := by simp [updates,new]
    rw [two] at goes ⊢
    unfold assignOrder
    rw [new]
    refine takes_bind (update_goes (goes.head (by omega)) assignable.here (by rw [placeOf,new]; rfl) fun mid posts places => ⟨(),rfl,?_⟩)
    have received : mid.place entry.1 = some (placed {status:=some .received} (placeOf entry.2)) := by rw [places,if_pos rfl]
    refine update_goes (goes.drop.head (by omega)) received rfl fun after kept moved => ⟨rfl,kept.trans posts,fun id => ?_⟩
    rw [moved,places]
    by_cases same : id = entry.1
    · simp [same,placed,onTheWay]
    · simp [same]
  · have one : updates [entry] = 0+1 := by simp [updates,new]
    rw [one] at goes ⊢
    unfold assignOrder
    rw [beq_eq_false_iff_ne.mpr new]
    refine takes_bind (takes_done ⟨(),rfl,?_⟩)
    refine update_goes (goes.head (by omega)) assignable.here (assignable.departs new) fun after kept moved => ⟨rfl,kept,fun id => ?_⟩
    rw [moved]
    simp [placed,onTheWay]

-- Where the orders are once a call of an assignment has failed, or its answer is lost.
structure Halfway (k : Nat) (fates : List Fate) (entry : Nat × Order) (s after : World) : Prop where
  posts : after.posts = s.posts
  others : ∀ id,id ≠ entry.1 → after.place id = s.place id
  own : (k = 0 ∧ fates.getD k (.goes 0) = .fails ∧ after.place entry.1 = s.place entry.1) ∨
    (∃ place,after.place entry.1 = some place ∧ place.status ≠ entry.2.status) ∧
    (fates.getD k (.goes 0) = .fails → k = 1 ∧ entry.2.status = .new)
theorem update_breaks {dto : UpdateDto} {place : Place} {id : Nat} (breaks : ¬undisturbed (fates.headD (.goes 0))) (here : s.place id = some place)
    (valid : isValidStatusTransition place.status (dto.status.getD place.status) = true) :
    s.takes fates 1 (updateOrder id dto (some requesterId)) fun result after => result = .error unavailable ∧ after.posts = s.posts ∧
      (∀ other,other ≠ id → after.place other = s.place other) ∧
      after.place id = if fates.headD (.goes 0) = .fails then some place else some (placed dto place) := by
  refine takes_mono (takes_breaks breaks) fun result after ended => ⟨ended.1,?_⟩
  obtain ⟨fails,rfl⟩ | ⟨lost,pick,rfl⟩ := ended.2
  · exact ⟨rfl,fun _ _ => rfl,by rw [if_pos fails,here]⟩
  · obtain ⟨after,same,posts,places⟩ := update_place dto (some requesterId) here valid
    rw [if_neg lost]
    change (s.updateOrder id dto (some requesterId)).1.posts = _ ∧ (∀ other,_ → (s.updateOrder id dto (some requesterId)).1.place other = _) ∧
      (s.updateOrder id dto (some requesterId)).1.place id = _
    rw [same]
    exact ⟨posts,fun other apart => by rw [places,if_neg apart],by rw [places,if_pos rfl]⟩
theorem assign_breaks {k : Nat} (assignable : Assignable s entry) (few : k < updates [entry]) (goes : AllGo k fates)
    (breaks : ¬undisturbed (fates.getD k (.goes 0))) :
    s.takes fates (k+1) (assignOrder now requesterId courierId targetId entry) fun result after =>
      result = .error unavailable ∧ Halfway k fates entry s after := by
  by_cases new : entry.2.status = .new
  · unfold assignOrder
    rw [new]
    rcases k with _ | k
    · rw [← head_getD] at breaks
      refine takes_stop (takes_mono (update_breaks breaks assignable.here (by rw [placeOf,new]; rfl)) fun result after ended => ?_)
      obtain ⟨rfl,posts,others,own⟩ := ended
      refine ⟨_,rfl,rfl,posts,others,?_⟩
      rw [← head_getD]
      by_cases fails : fates.headD (.goes 0) = .fails
      · exact .inl ⟨rfl,fails,by rw [own,if_pos fails,assignable.here]⟩
      · rw [if_neg fails] at own
        exact .inr ⟨⟨_,own,by simp [placed,new]⟩,fun dropped => absurd dropped fails⟩
    · obtain rfl : k = 0 := by
        have two : updates [entry] = 2 := by simp [updates,new]
        omega
      have last : ¬undisturbed ((fates.drop 1).headD (.goes 0)) := by rwa [head_getD,getD_drop]
      refine takes_bind (update_goes (goes.head (by omega)) assignable.here (by rw [placeOf,new]; rfl) fun mid posts places => ⟨(),rfl,?_⟩)
      have received : mid.place entry.1 = some (placed {status:=some .received} (placeOf entry.2)) := by rw [places,if_pos rfl]
      refine takes_mono (update_breaks last received rfl) fun result after ended => ?_
      obtain ⟨rfl,kept,others,own⟩ := ended
      refine ⟨rfl,kept.trans posts,fun id apart => by rw [others id apart,places,if_neg apart],.inr ⟨?_,fun _ => ⟨rfl,new⟩⟩⟩
      rw [own]
      split
      · exact ⟨_,rfl,by simp [placed,new]⟩
      · exact ⟨_,rfl,by simp [placed,new]⟩
  · obtain rfl : k = 0 := by
      have one : updates [entry] = 1 := by simp [updates,new]
      omega
    unfold assignOrder
    rw [beq_eq_false_iff_ne.mpr new]
    rw [← head_getD] at breaks
    refine takes_bind (m:=0) (n:=1) (takes_done ⟨(),rfl,?_⟩)
    refine takes_mono (update_breaks breaks assignable.here (assignable.departs new)) fun result after ended => ?_
    obtain ⟨rfl,posts,others,own⟩ := ended
    refine ⟨rfl,posts,others,?_⟩
    rw [← head_getD]
    change after.place entry.1 = if fates.headD (.goes 0) = .fails then _ else _ at own
    by_cases fails : fates.headD (.goes 0) = .fails
    · exact .inl ⟨rfl,fails,by rw [own,if_pos fails,assignable.here]⟩
    · rw [if_neg fails] at own
      exact .inr ⟨⟨_,own,assignable.leaves.symm⟩,fun dropped => absurd dropped fails⟩

theorem updates_cons (entry : Nat × Order) (entries : Table Order) : updates (entry :: entries) = updates [entry] + updates entries := by
  simp [updates]
theorem Puts.assignable {place : Place} {id : Nat} {mid : World} (puts : Puts [id] place s mid) (assignable : Assignable s entry)
    (apart : entry.1 ≠ id) :
    Assignable mid entry :=
  ⟨by rw [puts.places,if_neg (by simpa using apart),assignable.here],assignable.status⟩
theorem loop_goes (now requesterId courierId targetId : Nat) {entries : Table Order} (assignable : ∀ entry ∈ entries,Assignable s entry)
    (distinct : (entries.map (·.1)).Nodup)
    (goes : AllGo (updates entries) fates) :
    s.takes fates (updates entries) (untilFailure (assignOrder now requesterId courierId targetId) entries) fun result after =>
      result = .ok (entries,none) ∧ Puts (entries.map (·.1)) (onTheWay now courierId targetId) s after := by
  induction entries generalizing s fates with
  | nil => exact takes_done ⟨rfl,rfl,fun id => by simp⟩
  | cons entry rest ih =>
    rw [updates_cons] at goes ⊢
    obtain ⟨absent,distinct⟩ := List.nodup_cons.mp distinct
    refine takes_bind (takes_attempt (takes_mono (assign_goes (assignable entry (List.mem_cons_self ..)) (goes.front (by omega)))
      fun result mid ended => ⟨result,rfl,?_⟩))
    obtain ⟨rfl,puts⟩ := ended
    refine takes_bind (n:=0) (takes_mono (ih (fun other member => ?_) distinct goes.drop) fun result after ended => ?_)
    · exact puts.assignable (assignable other (List.mem_cons_of_mem _ member)) (ne_of_mem_of_not_mem (List.mem_map_of_mem member) absent)
    · obtain ⟨rfl,later⟩ := ended
      exact ⟨_,rfl,takes_done ⟨rfl,puts.append later⟩⟩
-- The loop up to the call that stops it.
theorem loop_breaks (now requesterId courierId targetId : Nat) {entries : Table Order} {k : Nat}
    (assignable : ∀ entry ∈ entries,Assignable s entry) (distinct : (entries.map (·.1)).Nodup)
    (few : k < updates entries) (goes : AllGo k fates) (breaks : ¬undisturbed (fates.getD k (.goes 0))) :
    s.takes fates (k+1) (untilFailure (assignOrder now requesterId courierId targetId) entries) fun result after =>
      ∃ front entry back mid,entries = front ++ entry :: back ∧ result = .ok (front,some unavailable) ∧ updates front ≤ k ∧
        Puts (front.map (·.1)) (onTheWay now courierId targetId) s mid ∧ Halfway (k-updates front) (fates.drop (updates front)) entry mid after := by
  induction entries generalizing s fates k with
  | nil => exact absurd few (Nat.not_lt_zero k)
  | cons entry rest ih =>
    rw [updates_cons] at few
    obtain ⟨absent,distinct⟩ := List.nodup_cons.mp distinct
    by_cases here : k < updates [entry]
    · refine takes_bind (n:=0) (takes_attempt (takes_mono (assign_breaks (assignable entry (List.mem_cons_self ..)) here goes breaks)
        fun result after ended => ⟨result,rfl,?_⟩))
      obtain ⟨rfl,halfway⟩ := ended
      exact takes_done ⟨[],entry,rest,s,rfl,rfl,Nat.zero_le k,⟨rfl,fun id => by simp⟩,halfway⟩
    · obtain ⟨j,rfl⟩ : ∃ j,k = updates [entry] + j := ⟨k-updates [entry],by omega⟩
      refine takes_bind (m:=updates [entry]) (n:=j+1) (takes_attempt (takes_mono
        (assign_goes (assignable entry (List.mem_cons_self ..)) (goes.front (by omega)))
        fun result mid ended => ⟨result,rfl,?_⟩))
      obtain ⟨rfl,puts⟩ := ended
      refine takes_bind (n:=0) (takes_mono (ih (fun other member => ?_) distinct (by omega) goes.drop (by rwa [getD_drop]))
        fun result after ended => ?_)
      · exact puts.assignable (assignable other (List.mem_cons_of_mem _ member)) (ne_of_mem_of_not_mem (List.mem_map_of_mem member) absent)
      · obtain ⟨front,last,back,between,rfl,rfl,fewer,later,halfway⟩ := ended
        refine ⟨_,rfl,takes_done ⟨entry :: front,last,back,between,rfl,rfl,?_,puts.append later,?_⟩⟩
        · rw [updates_cons entry front]
          omega
        · rw [updates_cons entry front,← List.drop_drop,Nat.add_sub_add_left]
          exact halfway


-- The way back, whatever happens to its calls: only the orders that were waiting go back, and they
-- when the call is carried out.
def earlier (order : Order) : UpdateDto :=
  {courierId:=some order.courierId,assignedAt:=some order.assignedAt,status:=some order.status,postId:=some order.postId}
def backAt (fate : Fate) (entry : Nat × Order) (place : Place) : Place :=
  if entry.2.status = .waiting ∧ fate ≠ .fails then placeOf entry.2 else place
theorem unassign_takes {place : Place} (known : entry.2.status = .new ∨ entry.2.status = .received ∨ entry.2.status = .waiting)
    (away : place.status = .onTheRoad) (there : s.place entry.1 = some place) :
    s.takes fates 1 (unassign requesterId entry) fun result after => result = .ok () ∧ after.posts = s.posts ∧
      (∀ id,id ≠ entry.1 → after.place id = s.place id) ∧ after.place entry.1 = some (backAt (fates.headD (.goes 0)) entry place) := by
  change s.takes fates 1 (tolerate (updateOrder entry.1 (earlier entry.2) (some requesterId))) _
  refine takes_tolerate (takes_call ⟨rfl,?_⟩)
  rw [answer_update]
  unfold backAt
  by_cases fails : fates.headD (.goes 0) = .fails
  · rw [if_pos fails,if_neg fun both => both.2 fails]
    exact ⟨rfl,fun _ _ => rfl,there⟩
  · rw [if_neg fails]
    by_cases waiting : entry.2.status = .waiting
    · obtain ⟨after,same,posts,places⟩ := update_place (earlier entry.2) (some requesterId) there (by rw [away,earlier,waiting]; rfl)
      rw [same,if_pos ⟨waiting,fails⟩]
      exact ⟨posts,fun id apart => by rw [places,if_neg apart],by rw [places,if_pos rfl]; rfl⟩
    · have invalid : isValidStatusTransition place.status entry.2.status = false := by
        rcases known with known | known | known
        · rw [away,known]
          rfl
        · rw [away,known]
          rfl
        · exact absurd known waiting
      obtain ⟨e,same⟩ := update_stays (earlier entry.2) (some requesterId) there invalid
      rw [same,if_neg fun both => waiting both.1]
      exact ⟨rfl,fun _ _ => rfl,there⟩
theorem rollback_takes (requesterId : Nat) {entries : Table Order} {place : Place}
    (known : ∀ entry ∈ entries,entry.2.status = .new ∨ entry.2.status = .received ∨ entry.2.status = .waiting) (away : place.status = .onTheRoad)
    (distinct : (entries.map (·.1)).Nodup) (there : ∀ entry ∈ entries,s.place entry.1 = some place) :
    s.takes fates entries.length (forEach (unassign requesterId) entries) fun result after => result = .ok () ∧ after.posts = s.posts ∧
      (∀ id,id ∉ entries.map (·.1) → after.place id = s.place id) ∧
      ∀ j entry,entries[j]? = some entry → after.place entry.1 = some (backAt (fates.getD j (.goes 0)) entry place) := by
  induction entries generalizing s fates with
  | nil => exact takes_done ⟨rfl,rfl,fun _ _ => rfl,fun j entry same => by simp at same⟩
  | cons first rest ih =>
    obtain ⟨absent,distinct⟩ := List.nodup_cons.mp distinct
    rw [List.length_cons,Nat.add_comm]
    refine takes_bind (takes_mono (unassign_takes (known first (List.mem_cons_self ..)) away (there first (List.mem_cons_self ..)))
      fun result mid ended => ⟨(),ended.1,?_⟩)
    obtain ⟨-,posts,others,own⟩ := ended
    refine takes_mono (ih (fun entry member => known entry (List.mem_cons_of_mem _ member)) distinct fun entry member => ?_)
      fun result after ended => ?_
    · rw [others entry.1 (ne_of_mem_of_not_mem (List.mem_map_of_mem member) absent)]
      exact there entry (List.mem_cons_of_mem _ member)
    · obtain ⟨rfl,kept,outside,back⟩ := ended
      refine ⟨rfl,kept.trans posts,fun id new => ?_,fun j entry same => ?_⟩
      · obtain ⟨apart,new⟩ := List.ne_and_not_mem_of_not_mem_cons new
        rw [outside id new,others id apart]
      · cases j with
        | zero =>
          obtain rfl := Option.some.inj same
          rw [outside _ absent,own,head_getD]
        | succ j =>
          rw [back j entry same,getD_drop,Nat.add_comm]


-- What the rest of the block does once the target post is there.
def takeBack (requesterId : Nat) (existing : Option (Nat × Post)) (targetId : Nat) (assigned : Table Order) (error : RpcError) :
    Operation AssignReply := do
  forEach (unassign requesterId) assigned
  onlyIf existing.isNone (tolerate (call (.removePost targetId)))
  fail error
def assignAll (now requesterId courierId : Nat) (existing : Option (Nat × Post)) (target : Nat × Post) (orders : Table Order) :
    Operation AssignReply := do
  let (assigned,failure) ← untilFailure (assignOrder now requesterId courierId target.1) orders
  match ← saveAssigned target assigned failure with
  | none => pure {idempotent:=false,postId:=target.1,postCreated:=existing.isNone}
  | some error => takeBack requesterId existing target.1 assigned error

-- No other post than the target is touched, and an old target is kept.
structure Guards (existing : Option (Nat × Post)) (targetId : Nat) (s after : World) : Prop where
  others : ∀ key,key ≠ targetId → after.posts.row key = s.posts.row key
  target : existing ≠ none → s.posts.row targetId ≠ none → after.posts.row targetId ≠ none
theorem removal_takes (existing : Option (Nat × Post)) (targetId : Nat) :
    ∃ n,s.takes fates n (onlyIf existing.isNone (tolerate (call (.removePost targetId))))
    fun result after => result = .ok () ∧ after.orders = s.orders ∧ Guards existing targetId s after := by
  cases existing with
  | some post => exact ⟨0,takes_done ⟨rfl,rfl,fun _ _ => rfl,fun _ there => there⟩⟩
  | none =>
    refine ⟨1,takes_tolerate (takes_call ⟨rfl,answer_orders s _ rfl,fun key apart => ?_,fun old => absurd rfl old⟩)⟩
    rcases answer_world s (fates.headD (.goes 0)) (.removePost targetId) with same | ⟨pick,same⟩
    · rw [same]
    · rw [same]
      change Table.row (s.posts.select fun k _ => k != targetId) key = _
      rw [row_removed,if_neg apart]
theorem place_orders {s after : World} (same : after.orders = s.orders) (id : Nat) : after.place id = s.place id := by
  rw [World.place,World.order,same]
  rfl
theorem takeBack_takes (requesterId : Nat) (existing : Option (Nat × Post)) (targetId : Nat) (error : RpcError) (fates : List Fate)
    {entries : Table Order} {place : Place}
    (known : ∀ entry ∈ entries,entry.2.status = .new ∨ entry.2.status = .received ∨ entry.2.status = .waiting) (away : place.status = .onTheRoad)
    (distinct : (entries.map (·.1)).Nodup) (there : ∀ entry ∈ entries,s.place entry.1 = some place) :
    ∃ n,s.takes fates n (takeBack requesterId existing targetId entries error) fun result after =>
      result = .error error ∧ Guards existing targetId s after ∧ (∀ id,id ∉ entries.map (·.1) → after.place id = s.place id) ∧
      ∀ j entry,entries[j]? = some entry → after.place entry.1 = some (backAt (fates.getD j (.goes 0)) entry place) := by
  obtain ⟨_,mid,ran,rfl,posts,outside,back⟩ := rollback_takes requesterId known away distinct there
  obtain ⟨n,removed⟩ := removal_takes (s:=mid) existing targetId
  refine ⟨entries.length+(n+0),takes_bind ⟨_,mid,ran,(),rfl,takes_bind (takes_mono removed fun result after ended => ?_)⟩⟩
  obtain ⟨rfl,orders,guards⟩ := ended
  refine ⟨(),rfl,takes_done ⟨rfl,?_,fun id new => ?_,fun j entry same => ?_⟩⟩
  · exact ⟨fun key apart => by rw [guards.others key apart,posts],fun old stored => guards.target old (posts ▸ stored)⟩
  · rw [place_orders orders,outside id new]
  · rw [place_orders orders,back j entry same]

theorem guards_put (existing : Option (Nat × Post)) {after : World} {post : Post} (saved : after.posts = s.posts.put targetId post) :
    Guards existing targetId s after ∧ after.posts.row targetId ≠ none := by
  have stored : after.posts.row targetId ≠ none := by
    rw [saved,row_put,if_pos rfl]
    exact Option.some_ne_none post
  exact ⟨⟨fun key apart => by rw [saved,row_put,if_neg apart.symm],fun _ _ => stored⟩,stored⟩
theorem save_takes (existing : Option (Nat × Post)) (fates : List Fate) (target : Nat × Post) (assigned : Table Order) :
    s.takes fates 1 (saveAssigned target assigned none) fun result after => after.orders = s.orders ∧ Guards existing target.1 s after ∧
      (undisturbed (fates.headD (.goes 0)) → result = .ok none ∧ after.posts.row target.1 ≠ none) ∧
      (¬undisturbed (fates.headD (.goes 0)) → result = .ok (some unavailable)) := by
  refine takes_bind (n:=0) (takes_attempt (takes_call ⟨_,rfl,?_⟩))
  cases fates.headD (.goes 0) with
  | goes pick =>
    exact takes_done ⟨rfl,(guards_put existing rfl).1,fun _ => ⟨rfl,(guards_put none (s:=s) rfl).2⟩,fun breaks => absurd ⟨pick,rfl⟩ breaks⟩
  | lost pick => exact takes_done ⟨rfl,(guards_put existing rfl).1,fun ⟨_,goes⟩ => (nomatch goes),fun _ => rfl⟩
  | fails => exact takes_done ⟨rfl,⟨fun _ _ => rfl,fun _ there => there⟩,fun ⟨_,goes⟩ => (nomatch goes),fun _ => rfl⟩

theorem assignAll_goes {entries : Table Order} {existing : Option (Nat × Post)} (target : Nat × Post)
    (assignable : ∀ entry ∈ entries,Assignable s entry)
    (distinct : (entries.map (·.1)).Nodup) (goes : AllGo (updates entries+1) fates) :
    s.takes fates (updates entries+1) (assignAll now requesterId courierId existing target entries) fun result _ =>
      ∃ reply,result = .ok reply := by
  refine takes_bind (takes_mono (loop_goes now requesterId courierId target.1 assignable distinct (goes.front (by omega))) fun result mid ended => ?_)
  obtain ⟨rfl,-⟩ := ended
  refine ⟨_,rfl,takes_bind (n:=0) (takes_mono (save_takes existing _ target entries) fun result _ saved => ?_)⟩
  obtain ⟨-,-,carried,-⟩ := saved
  obtain ⟨rfl,-⟩ := carried (goes.drop.head (by omega))
  exact ⟨none,rfl,takes_done ⟨_,rfl⟩⟩

-- When nothing is left of an assignment whose update number k has failed (the last one being the
-- save of the post): the orders before it were all waiting, it was not carried out, and the
-- updates that take those orders back are.
structure Undone (k : Nat) (fates : List Fate) (entries : Table Order) : Prop where
  waiting : ∀ entry ∈ entries.take k,entry.2.status = .waiting
  dropped : k < updates entries → fates.getD k (.goes 0) = .fails
  back : ∀ j,j < k → fates.getD (k+1+j) (.goes 0) ≠ .fails
theorem length_updates (entries : Table Order) : entries.length ≤ updates entries := by
  induction entries with
  | nil => exact Nat.le_refl _
  | cons entry rest ih =>
    have one : 1 ≤ updates [entry] := by
      unfold updates
      simp only [List.map_cons,List.map_nil,List.sum_cons,List.sum_nil]
      split <;> omega
    rw [updates_cons,List.length_cons]
    omega
theorem waiting_updates {entries : Table Order} (waiting : ∀ entry ∈ entries,entry.2.status = .waiting) : updates entries = entries.length := by
  induction entries with
  | nil => rfl
  | cons entry rest ih =>
    rw [updates_cons,ih fun other member => waiting other (List.mem_cons_of_mem _ member),List.length_cons,Nat.add_comm]
    simp [updates,waiting entry (List.mem_cons_self ..)]
theorem undone_iff {front back : Table Order} (stopped : updates front < updates (front ++ back) → fates.getD (updates front) (.goes 0) = .fails) :
    Undone (updates front) fates (front ++ back) ↔ ∀ j entry,front[j]? = some entry →
      entry.2.status = .waiting ∧ (fates.drop (updates front+1)).getD j (.goes 0) ≠ .fails := by
  constructor
  · rintro ⟨waiting,-,carried⟩ j entry same
    have inside : j < front.length := (List.getElem?_eq_some_iff.mp same).1
    have fewer := length_updates front
    refine ⟨waiting entry ?_,by rw [getD_drop]; exact carried j (by omega)⟩
    rw [List.take_append]
    exact List.mem_append_left _ (by rw [List.take_of_length_le fewer]; exact List.mem_of_getElem? same)
  · intro each
    have waiting : ∀ entry ∈ front,entry.2.status = .waiting := fun entry member => by
      obtain ⟨j,same⟩ := List.getElem?_of_mem member
      exact (each j entry same).1
    have count := waiting_updates waiting
    refine ⟨fun entry member => waiting entry ?_,stopped,fun j fewer => ?_⟩
    · simpa [count] using member
    · rw [← getD_drop]
      obtain ⟨entry,same⟩ : ∃ entry,front[j]? = some entry := ⟨_,List.getElem?_eq_getElem (by omega)⟩
      exact (each j entry same).2

-- The orders that have been assigned are back where they were exactly when each of them goes back.
theorem back_iff {front : Table Order} {place : Place} {after : World} (assignable : ∀ entry ∈ front,Assignable s entry)
    (away : place.status = .onTheRoad)
    (back : ∀ j entry,front[j]? = some entry → after.place entry.1 = some (backAt (fates.getD j (.goes 0)) entry place)) :
    (∀ entry ∈ front,after.place entry.1 = s.place entry.1) ↔ ∀ j entry,front[j]? = some entry →
      entry.2.status = .waiting ∧ fates.getD j (.goes 0) ≠ .fails := by
  constructor
  · intro same j entry listed
    have member := List.mem_of_getElem? listed
    by_contra stays
    have here := same entry member
    rw [back j entry listed,backAt,if_neg stays,(assignable entry member).here] at here
    have status : place.status = entry.2.status := congrArg Place.status (Option.some.inj here)
    exact (assignable entry member).leaves (status ▸ away)
  · intro each entry member
    obtain ⟨j,listed⟩ := List.getElem?_of_mem member
    rw [back j entry listed,backAt,if_pos (each j entry listed),(assignable entry member).here]
theorem returns_iff {front back : Table Order} {place : Place} {mid after : World} (assignable : ∀ entry ∈ front,Assignable s entry)
    (away : place.status = .onTheRoad) (stopped : updates front < updates (front ++ back) → fates.getD (updates front) (.goes 0) = .fails)
    (still : ∀ id,id ∉ front.map (·.1) → mid.place id = s.place id) (outside : ∀ id,id ∉ front.map (·.1) → after.place id = mid.place id)
    (moved : ∀ j entry,front[j]? = some entry →
      after.place entry.1 = some (backAt ((fates.drop (updates front+1)).getD j (.goes 0)) entry place)) :
    (∀ id,after.place id = s.place id) ↔ Undone (updates front) fates (front ++ back) := by
  rw [undone_iff stopped,← back_iff assignable away moved]
  refine ⟨fun same entry _ => same entry.1,fun same id => ?_⟩
  by_cases inside : id ∈ front.map (·.1)
  · obtain ⟨entry,member,rfl⟩ := List.mem_map.mp inside
    exact same entry member
  · rw [outside id inside,still id inside]
-- An order that the failing call has reached half way is in nobody's list.
theorem reached_stays {front back : Table Order} {k : Nat} (later : updates front ≤ k) (few : k < updates (front ++ entry :: back))
    (halfway : (fates.drop (updates front)).getD (k-updates front) (.goes 0) = .fails → k-updates front = 1 ∧ entry.2.status = .new) :
    ¬Undone k fates (front ++ entry :: back) := by
  rintro ⟨waiting,dropped,-⟩
  rw [getD_drop,Nat.add_sub_cancel' later] at halfway
  obtain ⟨second,new⟩ := halfway (dropped few)
  have fewer := length_updates front
  have reached : entry ∈ (front ++ entry :: back).take k := by
    obtain ⟨more,rfl⟩ : ∃ more,k = front.length+(more+1) := ⟨k-front.length-1,by omega⟩
    rw [List.take_append]
    exact List.mem_append_right _ (by simp)
  exact nomatch new.symm.trans (waiting entry reached)
theorem assignAll_breaks {entries : Table Order} {existing : Option (Nat × Post)} {k : Nat} (target : Nat × Post)
    (assignable : ∀ entry ∈ entries,Assignable s entry) (distinct : (entries.map (·.1)).Nodup) (few : k ≤ updates entries)
    (goes : AllGo k fates) (breaks : ¬undisturbed (fates.getD k (.goes 0))) :
    ∃ n,s.takes fates n (assignAll now requesterId courierId existing target entries) fun result after => result = .error unavailable ∧
      Guards existing target.1 s after ∧ ((∀ id,after.place id = s.place id) ↔ Undone k fates entries) := by
  rcases Nat.lt_or_eq_of_le few with inside | rfl
  · obtain ⟨_,reached,ran,front,entry,back,mid,rfl,rfl,later,puts,halfway⟩ :=
      loop_breaks now requesterId courierId target.1 assignable distinct inside goes breaks
    have listed : ∀ other ∈ front,Assignable s other := fun other member => assignable other (List.mem_append_left _ member)
    rw [List.map_append,List.map_cons] at distinct
    have absent : entry.1 ∉ front.map (·.1) := fun member => (List.nodup_append.mp distinct).2.2 _ member _ (List.mem_cons_self ..) rfl
    have there : ∀ other ∈ front,reached.place other.1 = some (onTheWay now courierId target.1) := fun other member => by
      have key := List.mem_map_of_mem (f:=fun other : Nat × Order => other.1) member
      rw [halfway.others _ (ne_of_mem_of_not_mem key absent),puts.places,if_pos key]
    obtain ⟨n,takes⟩ := takeBack_takes requesterId existing target.1 unavailable (fates.drop (k+1))
      (fun other member => (listed other member).status) rfl (List.nodup_append.mp distinct).1 there
    refine ⟨k+1+(0+n),takes_bind ⟨_,reached,ran,_,rfl,takes_bind (takes_done ⟨some unavailable,rfl,takes_mono takes fun result after ended => ?_⟩)⟩⟩
    obtain ⟨rfl,guards,outside,moved⟩ := ended
    have posts : reached.posts = s.posts := halfway.posts.trans puts.posts
    refine ⟨rfl,⟨fun key apart => by rw [guards.others key apart,posts],fun old stored => guards.target old (posts ▸ stored)⟩,?_⟩
    rcases halfway.own with ⟨first,fails,own⟩ | ⟨⟨place,own,changed⟩,second⟩
    · obtain rfl : k = updates front := by omega
      rw [getD_drop,first,Nat.add_zero] at fails
      refine returns_iff listed rfl (fun _ => fails) (fun id new => ?_) outside moved
      by_cases last : id = entry.1
      · rw [last,own,puts.places,if_neg absent]
      · rw [halfway.others id last,puts.places,if_neg new]
    · refine iff_of_false (fun same => changed ?_) (reached_stays later inside second)
      have here := same entry.1
      rw [outside _ absent,own,(assignable entry (List.mem_append_right _ (List.mem_cons_self ..))).here] at here
      exact congrArg Place.status (Option.some.inj here)
  · obtain ⟨_,mid,ran,rfl,puts⟩ := loop_goes now requesterId courierId target.1 assignable distinct goes
    rw [← Nat.add_zero (updates entries),← getD_drop,← head_getD] at breaks
    obtain ⟨_,written,saved,orders,guarded,-,stopped⟩ := save_takes (s:=mid) existing (fates.drop (updates entries)) target entries
    obtain rfl := stopped breaks
    have there : ∀ entry ∈ entries,written.place entry.1 = some (onTheWay now courierId target.1) := fun entry member => by
      rw [place_orders orders,puts.places,if_pos (List.mem_map_of_mem member)]
    obtain ⟨n,takes⟩ := takeBack_takes requesterId existing target.1 unavailable (fates.drop (updates entries+1))
      (fun entry member => (assignable entry member).status) rfl distinct there
    rw [← List.drop_drop] at takes
    refine ⟨updates entries+(1+n),takes_bind ⟨_,mid,ran,_,rfl,takes_bind ⟨_,written,saved,_,rfl,takes_mono takes fun result after ended => ?_⟩⟩⟩
    obtain ⟨rfl,guards,outside,moved⟩ := ended
    refine ⟨rfl,⟨fun key apart => ?_,fun old stored => guards.target old (guarded.target old (puts.posts ▸ stored))⟩,?_⟩
    · rw [guards.others key apart,guarded.others key apart,puts.posts]
    · rw [List.drop_drop] at moved
      have same : _ ↔ Undone (updates entries) fates (entries ++ []) :=
        returns_iff assignable rfl (by simp) (fun id new => by rw [place_orders orders,puts.places,if_neg new]) outside moved
      rwa [List.append_nil] at same

end Assigning

-- The orders that the checks let through.
structure Admitted (w : World) (requester : Requester) (branchId courierId : Nat) (givenIds : List Nat) (entries : Table Order) : Prop where
  ids : entries.map (·.1) = givenIds.eraseDups
  filled : entries ≠ []
  stored : ∀ entry ∈ entries,w.order entry.1 = some entry.2
  manages : ∃ role,w.assignments.row requester.id = some ⟨branchId,role⟩ ∧ (role = .manager ∨ role = .registrator)
  works : (courierId,⟨branchId,.courier⟩) ∈ w.assignments
  branch : ∀ entry ∈ entries,getOrderBranchScope entry.2 = some branchId
  status : ∀ entry ∈ entries,entry.2.status = .new ∨ entry.2.status = .received ∨ entry.2.status = .waiting
  free : ∀ entry ∈ entries,entry.2.courierId = none ∨ entry.2.courierId = some courierId
def sentPost (w : World) (courierId : Nat) : Option (Nat × Post) :=
  (w.posts.select fun _ post => post.courierId == courierId && post.status == .sent).getLast?
-- The calls before the first update: four kinds of reads, and a post when there is none.
def reads (entries : Table Order) : Nat := 1+(1+(entries.length+1))
def firstPost (courierId : Nat) (entries : Table Order) : Post :=
  emptyPost courierId (entries.head?.bind fun entry => entry.2.regionId) none .sent
def readsFor (w : World) (courierId : Nat) (entries : Table Order) : Nat := reads entries+if sentPost w courierId = none then 1 else 0

section Starting
variable {w : World} {now courierId branchId : Nat} {requester : Requester} {givenIds : List Nat} {entries : Table Order} {fates : List Fate}

theorem findEach_takes {ids : List Nat} (keys : entries.map (·.1) = ids) (stored : ∀ entry ∈ entries,w.order entry.1 = some entry.2)
    (goes : AllGo entries.length fates) : w.takes fates entries.length (findEach ids) fun result after => result = .ok entries ∧ after = w := by
  subst keys
  induction entries generalizing fates with
  | nil => exact takes_done ⟨rfl,rfl⟩
  | cons entry rest ih =>
    rw [List.length_cons,Nat.add_comm] at goes ⊢
    have read : ∀ pick,w.carry pick (.findOrderById entry.1) = (w,.ok entry.2) := fun pick => by
      rw [World.carry,stored entry (List.mem_cons_self ..)]
    refine takes_bind (takes_bind (n:=0) (takes_goes (goes.head (by omega)) read ⟨_,rfl,takes_done ⟨_,rfl,?_⟩⟩))
    refine takes_bind (n:=0) (takes_mono (ih (fun other member => stored other (List.mem_cons_of_mem _ member)) goes.drop)
      fun result after ended => ?_)
    obtain ⟨rfl,rfl⟩ := ended
    exact ⟨_,rfl,takes_done ⟨rfl,rfl⟩⟩

-- What there is when the updates begin: the post is one that was there, or a new one.
structure Begun (w : World) (courierId : Nat) (target : Nat × Post) (mid : World) : Prop where
  orders : mid.orders = w.orders
  old : sentPost w courierId ≠ none → mid.posts = w.posts ∧ target ∈ w.posts
  fresh : sentPost w courierId = none → target.1 = w.nextPost ∧ mid.posts = w.posts.put w.nextPost target.2
theorem assign_reads {n : Nat} {Q : Except RpcError AssignReply → World → Prop} (admitted : Admitted w requester branchId courierId givenIds entries)
    (goes : AllGo (reads entries) fates) (later : w.takes (fates.drop (reads entries)) n
      ((orInsert (sentPost w courierId) (firstPost courierId entries)).bind fun target =>
        assignAll now requester.id courierId (sentPost w courierId) target entries) Q) :
    w.takes fates (reads entries+n) (assignOrdersToCourier now requester givenIds courierId) Q := by
  obtain ⟨role,assigned,trusted⟩ := admitted.manages
  unfold reads at *
  simp only [Nat.add_assoc] at goes ⊢
  unfold assignOrdersToCourier
  dsimp only
  refine takes_require (by simpa [← admitted.ids] using admitted.filled) ?_
  refine takes_bind (takes_lenient (takes_goes (goes.head (by omega)) (fun pick => rfl) ⟨_,rfl,_,rfl,?_⟩))
  refine takes_found assigned (takes_require (by simpa using trusted) ?_)
  refine takes_bind (takes_lenient (takes_goes (goes.drop.head (by omega)) (fun pick => rfl) ⟨_,rfl,_,rfl,?_⟩))
  refine takes_require (List.any_eq_true.mpr ⟨_,List.mem_filter.mpr ⟨admitted.works,by simp⟩,by simp⟩) ?_
  refine takes_bind (takes_mono (findEach_takes admitted.ids admitted.stored (goes.drop.drop.front (by omega))) fun result after ended => ?_)
  obtain ⟨rfl,rfl⟩ := ended
  refine ⟨_,rfl,?_⟩
  obtain ⟨first,rest,rfl⟩ := List.exists_cons_of_ne_nil admitted.filled
  refine takes_found (admitted.branch first (List.mem_cons_self ..)) (takes_require (by simp)
    (takes_require ?_ (takes_refuse ?_ (takes_refuse ?_ ?_))))
  · exact List.all_eq_true.mpr fun entry member => beq_iff_eq.mpr (admitted.branch entry member)
  · refine List.find?_eq_none.mpr fun entry member => ?_
    rcases admitted.status entry member with same | same | same
    · simp [same]
    · simp [same]
    · simp [same]
  · refine List.find?_eq_none.mpr fun entry member => ?_
    rcases admitted.free entry member with same | same
    · simp [same]
    · simp [same]
  refine takes_bind (takes_goes (goes.drop.drop.drop.head (by omega)) (fun pick => rfl) ⟨_,rfl,?_⟩)
  simp only [List.drop_drop,Nat.add_assoc] at later ⊢
  exact later
theorem assign_begins (now : Nat) (admitted : Admitted w requester branchId courierId givenIds entries)
    (goes : AllGo (readsFor w courierId entries) fates) : ∃ target mid,Begun w courierId target mid ∧
      ∀ n Q,mid.takes (fates.drop (readsFor w courierId entries)) n (assignAll now requester.id courierId (sentPost w courierId) target entries) Q →
        w.takes fates (readsFor w courierId entries+n) (assignOrdersToCourier now requester givenIds courierId) Q := by
  unfold readsFor at *
  cases there : sentPost w courierId with
  | some target =>
    rw [there] at goes
    refine ⟨target,w,⟨rfl,fun _ => ⟨rfl,?_⟩,fun none => nomatch there.symm.trans none⟩,fun n Q later => ?_⟩
    · exact (List.mem_filter.mp (List.mem_of_getLast? there)).1
    · rw [if_neg (Option.some_ne_none target),Nat.add_zero] at later ⊢
      refine assign_reads admitted (goes.front (by omega)) ?_
      rw [there]
      exact later
  | none =>
    rw [there,if_pos rfl] at goes
    refine ⟨(w.nextPost,firstPost courierId entries),(w.carry 0 (.insertPost (firstPost courierId entries))).1,
      ⟨rfl,fun old => absurd there old,fun _ => ⟨rfl,rfl⟩⟩,fun n Q later => ?_⟩
    rw [if_pos rfl] at later ⊢
    rw [Nat.add_assoc]
    refine assign_reads admitted (goes.front (by omega)) ?_
    rw [there]
    refine takes_bind (takes_bind (n:=0) (takes_goes (goes.drop.head (by omega)) (fun pick => rfl) ⟨_,rfl,takes_done ⟨_,rfl,?_⟩⟩))
    rw [List.drop_drop]
    exact later

-- An answer tells that everything is in place, whatever happened to the calls.
theorem update_ends (s : World) (id : Nat) (dto : UpdateDto) (requesterId : Option Nat) :
    s.ends anyFate (updateOrder id dto requesterId) (fun _ => True) fun result after =>
      ∀ a,result = .ok a → ∃ place,Puts [id] (placed dto place) s after := by
  refine fun fate _ => ⟨trivial,fun a answered => ?_⟩
  obtain ⟨pick,carried⟩ : ∃ pick,s.answer fate (.updateOrder id dto requesterId) = s.carry pick (.updateOrder id dto requesterId) :=
    answer_ok answered
  change s.answer fate (.updateOrder id dto requesterId) = s.updateOrder id dto requesterId at carried
  rw [carried] at answered ⊢
  rcases update_cases s id dto requesterId with ⟨e,refused⟩ | ⟨order,stored,valid,-⟩
  · rw [refused] at answered
    cases answered
  · obtain ⟨after,same,posts,places⟩ := update_place dto requesterId (by rw [World.place,stored]; rfl) valid
    rw [same]
    exact ⟨placeOf order,posts,fun other => by simp [places]⟩
theorem assign_ends (s : World) (requesterId targetId : Nat) (entry : Nat × Order) :
    s.ends anyFate (assignOrder now requesterId courierId targetId entry) (fun _ => True) fun result after =>
      ∀ a,result = .ok a → Puts [entry.1] (onTheWay now courierId targetId) s after := by
  have last : ∀ mid : World,(∀ other,other ≠ entry.1 → mid.place other = s.place other) → mid.posts = s.posts →
      mid.ends anyFate (updateOrder entry.1 (departure now courierId targetId) (some requesterId)) (fun _ => True) fun result after =>
        ∀ a,result = .ok a → Puts [entry.1] (onTheWay now courierId targetId) s after := by
    intro mid others posts
    refine ends_mono (update_ends mid entry.1 _ _) fun result after ended a answered => ?_
    obtain ⟨place,puts⟩ := ended a answered
    refine ⟨puts.posts.trans posts,fun id => ?_⟩
    rw [puts.places]
    by_cases same : id = entry.1
    · simp [same,placed,departure,onTheWay]
    · simpa [same] using others id same
  refine ends_bind (ends_onlyIf (fun _ => ends_mono (update_ends s entry.1 _ _) fun result mid ended => ?_) fun _ => last s (fun _ _ => rfl) rfl)
  cases result with
  | error e => exact fun _ answered => nomatch answered
  | ok a =>
    obtain ⟨place,puts⟩ := ended a rfl
    exact last mid (fun other apart => by rw [puts.places,if_neg (by simpa using apart)]) puts.posts
theorem assignAll_ends (s : World) (requesterId : Nat) (existing : Option (Nat × Post)) (target : Nat × Post) (orders : Table Order) :
    s.ends anyFate (assignAll now requesterId courierId existing target orders) (fun _ => True) fun result after =>
      ∀ reply,result = .ok reply → reply.postId = target.1 ∧ after.posts.row target.1 ≠ none ∧
        ∀ id ∈ orders.map (·.1),after.place id = some (onTheWay now courierId target.1) := by
  have failing : ∀ (mid : World) (assigned : Table Order) (error : RpcError),
      mid.ends anyFate (takeBack requesterId existing target.1 assigned error) (fun _ => True) fun result after =>
        ∀ reply,result = .ok reply → reply.postId = target.1 ∧ after.posts.row target.1 ≠ none ∧
          ∀ id ∈ orders.map (·.1),after.place id = some (onTheWay now courierId target.1) := by
    intro mid assigned error
    refine ends_steps (R:=fun _ _ => True) (steps_forEach steady_true (fun entry => steps_tolerate steady_true
      (steps_call fun _ _ _ _ => ⟨trivial,trivial⟩)) assigned) trivial (fun _ after _ _ => ?_) fun _ _ _ _ answered => nomatch answered
    refine ends_steps (R:=fun _ _ => True) (steps_onlyIf steady_true (steps_tolerate steady_true
      (steps_call fun _ _ _ _ => ⟨trivial,trivial⟩))) trivial (fun _ _ _ _ _ answered => nomatch answered) fun _ _ _ _ answered => nomatch answered
  refine ends_bind (ends_untilFailure (fun ys _ after => ∀ id ∈ ys.map (·.1),after.place id = some (onTheWay now courierId target.1))
    (fun ys entry rest mid held => ends_mono (assign_ends mid requesterId target.1 entry) fun result after ended => ?_) (by simp) fun mid held => ?_)
  · cases result with
    | error e => exact ends_bind (ends_mono (failing after ys e) fun _ _ ended => ended)
    | ok a =>
      have puts := ended a rfl
      intro id member
      rw [puts.places]
      by_cases same : id = entry.1
      · simp [same]
      · rw [if_neg (by simpa using same)]
        exact held id (by simpa [same] using member)
  · refine ends_bind (ends_bind (ends_attempt fun fate _ => ⟨trivial,?_⟩))
    cases fate with
    | goes pick =>
      rintro _ ⟨⟩
      exact ⟨rfl,(guards_put none (s:=mid) rfl).2,held⟩
    | lost pick => exact failing _ _ _
    | fails => exact failing _ _ _

-- What a reply promises.
def Delivered (now courierId : Nat) (givenIds : List Nat) (result : Except RpcError AssignReply) (after : World) : Prop :=
  ∀ reply,result = .ok reply → after.posts.row reply.postId ≠ none ∧
    ∀ id ∈ givenIds,after.place id = some (onTheWay now courierId reply.postId)
theorem assign_delivers (w : World) (now : Nat) (requester : Requester) (givenIds : List Nat) (courierId : Nat) :
    w.ends anyFate (assignOrdersToCourier now requester givenIds courierId) (fun _ => True) (Delivered now courierId givenIds) := by
  have refused : ∀ (e : RpcError) (s : World),Delivered now courierId givenIds (.error e) s := fun _ _ _ answered => nomatch answered
  have silent : ∀ action,(call action).Steps World.answer anyFate (fun _ => True) fun _ _ => True :=
    fun _ => steps_call fun _ _ _ _ => ⟨trivial,trivial⟩
  have made : ∀ row post,(orInsert row post).Steps World.answer anyFate (fun _ => True) fun _ _ => True := by
    intro row post
    cases row with
    | some entry => exact steps_done steady_true _
    | none => exact steps_bind steady_true (silent _) fun _ => steps_done steady_true _
  refine ends_require (fun _ => ?_) fun _ => refused _ w
  refine ends_steps (steps_lenient steady_true (silent _)) trivial (fun found s _ _ => ?_) fun e s _ => refused e s
  refine ends_found (fun assignment _ => ends_require (fun _ => ?_) fun _ => refused _ s) fun _ => refused _ s
  refine ends_steps (steps_lenient steady_true (silent _)) trivial (fun branchUsers s _ _ => ?_) fun e s _ => refused e s
  refine ends_require (fun _ => ends_findEach trivial (fun orders keys _ => ?_) fun e => refused e s) fun _ => refused _ s
  refine ends_found (fun branch _ => ends_require (fun _ => ends_require (fun _ => ?_) fun _ => refused _ s) fun _ => refused _ s) fun _ =>
    refused _ s
  refine ends_refuse (fun _ => ends_refuse (fun _ => ?_) fun _ _ => refused _ s) fun _ _ => refused _ s
  refine ends_steps (silent _) trivial (fun existing s _ _ => ?_) fun e s _ => refused e s
  refine ends_steps (made existing _) trivial (fun target s _ _ => ?_) fun e s _ => refused e s
  refine ends_mono (assignAll_ends s requester.id existing target orders) fun result after ended reply answered => ?_
  obtain ⟨same,stored,held⟩ := ended reply answered
  rw [same]
  refine ⟨stored,fun id member => held id ?_⟩
  rw [keys]
  exact List.mem_eraseDups.mpr member

-- Every order is where it was, and one that names a post that is not there named none before.
structure Restored (w after : World) : Prop where
  places : ∀ id,after.place id = w.place id
  posts : ∀ id order post,after.order id = some order → order.postId = some post → after.posts.row post = none → w.posts.row post = none
theorem restored_iff {target : Nat × Post} {mid after : World} (fresh : w.posts.row w.nextPost = none) (begun : Begun w courierId target mid)
    (guards : Guards (sentPost w courierId) target.1 mid after) : Restored w after ↔ ∀ id,after.place id = mid.place id := by
  have here : ∀ id,mid.place id = w.place id := place_orders begun.orders
  refine ⟨fun restored id => (restored.places id).trans (here id).symm,fun same => ⟨fun id => (same id).trans (here id),?_⟩⟩
  intro id order post _ _ gone
  cases there : sentPost w courierId with
  | none =>
    obtain ⟨new,posts⟩ := begun.fresh there
    by_cases own : post = w.nextPost
    · rw [own,fresh]
    · rw [guards.others post (new ▸ own),posts,row_put,if_neg (Ne.symm own)] at gone
      exact gone
  | some old =>
    have known : sentPost w courierId ≠ none := by simp [there]
    obtain ⟨posts,member⟩ := begun.old known
    by_cases own : post = target.1
    · refine absurd (own ▸ gone) (guards.target known ?_)
      rw [posts,Ne,row_none]
      exact fun absent => absent (List.mem_map_of_mem member)
    · rwa [guards.others post own,posts] at gone
theorem bulk_assignment (admitted : Admitted w requester branchId courierId givenIds entries) (fresh : w.posts.row w.nextPost = none) :
    (∀ fates,Delivered now courierId givenIds (w.run (assignOrdersToCourier now requester givenIds courierId) fates).2.1
      (w.run (assignOrdersToCourier now requester givenIds courierId) fates).1) ∧
    (∀ fates,AllGo (readsFor w courierId entries+(updates entries+1)) fates →
      ∃ reply,(w.run (assignOrdersToCourier now requester givenIds courierId) fates).2.1 = .ok reply) ∧
    ∀ fates k,k ≤ updates entries → AllGo (readsFor w courierId entries+k) fates →
      ¬undisturbed (fates.getD (readsFor w courierId entries+k) (.goes 0)) →
      (w.run (assignOrdersToCourier now requester givenIds courierId) fates).2.1 = .error unavailable ∧
      (Restored w (w.run (assignOrdersToCourier now requester givenIds courierId) fates).1 ↔
        Undone k (fates.drop (readsFor w courierId entries)) entries) := by
  have assignable : ∀ {mid : World} {target : Nat × Post},Begun w courierId target mid → ∀ entry ∈ entries,Assignable mid entry :=
    fun begun entry member => ⟨by rw [place_orders begun.orders,World.place,admitted.stored entry member]; rfl,admitted.status entry member⟩
  have distinct : (entries.map (·.1)).Nodup := admitted.ids ▸ Batches.eraseDups_nodup _
  refine ⟨fun fates => run_ends (assign_delivers w now requester givenIds courierId) fates,fun fates goes => ?_,fun fates k few goes breaks => ?_⟩
  · obtain ⟨target,mid,begun,carries⟩ := assign_begins now admitted (goes.front (by omega))
    exact takes_result (carries _ _ (assignAll_goes target (assignable begun) distinct goes.drop))
  · obtain ⟨target,mid,begun,carries⟩ := assign_begins now admitted (goes.front (by omega))
    rw [← getD_drop] at breaks
    obtain ⟨n,takes⟩ := assignAll_breaks target (assignable begun) distinct few goes.drop breaks
    obtain ⟨failed,guards,iff⟩ := takes_result (carries n _ takes)
    exact ⟨failed,(restored_iff fresh begun guards).trans iff⟩

end Starting

-- A waiting order and a received one, of a courier who has no post yet.
def pickedOrders : Table Order :=
  [(11,{sampleOrder with postId:=none}),(12,{sampleOrder with status:=.received,postId:=none})]
def branchOffice : World :=
  {posts:=[],nextPost:=1,orders:=pickedOrders,assignments:=[(2,⟨3,.manager⟩),(7,⟨3,.courier⟩)],couriers:=[7],lookups:=sampleLookups 3000000 1000}
def branchManager : Requester := {id:=2,roles:=[.manager],branchId:=some 3}
def failingAfter (n : Nat) : List Fate := List.replicate n (.goes 0) ++ [.fails]
theorem branchOffice_admitted : Admitted branchOffice branchManager 3 7 [11,12] pickedOrders :=
  ⟨by decide,by decide,by decide,⟨.manager,rfl,.inl rfl⟩,by decide,by decide,by decide,by decide⟩
theorem failingAfter_goes (n : Nat) : AllGo n (failingAfter n) := fun i inside => by
  simp [failingAfter,List.getD_eq_getElem?_getD,List.getElem?_append_left,inside,undisturbed]
theorem failingAfter_fails (n : Nat) : (failingAfter n).getD n (.goes 0) = .fails := by
  simp [failingAfter,List.getD_eq_getElem?_getD]
theorem bulk_assignment_second : Restored branchOffice
    (branchOffice.run (assignOrdersToCourier 1000 branchManager [11,12] 7) (failingAfter (readsFor branchOffice 7 pickedOrders+1))).1 :=
  ((bulk_assignment branchOffice_admitted rfl).2.2 _ 1 (by decide) (failingAfter_goes _) (by rw [failingAfter_fails]; exact nofun)).2.mpr
    ⟨by decide,fun _ => rfl,by decide⟩
-- The received order stays on the road, in a post that is gone.
theorem assignment_stays : Admitted branchOffice branchManager 3 7 [11,12] pickedOrders ∧
    (branchOffice.run (assignOrdersToCourier 1000 branchManager [11,12] 7) (failingAfter (readsFor branchOffice 7 pickedOrders+2))).2.1 =
      .error unavailable ∧
    (branchOffice.run (assignOrdersToCourier 1000 branchManager [11,12] 7) (failingAfter (readsFor branchOffice 7 pickedOrders+2))).1.place 12 =
      some (onTheWay 1000 7 1) ∧
    (branchOffice.run (assignOrdersToCourier 1000 branchManager [11,12] 7) (failingAfter (readsFor branchOffice 7 pickedOrders+2))).1.posts = [] ∧
    ¬Restored branchOffice
      (branchOffice.run (assignOrdersToCourier 1000 branchManager [11,12] 7) (failingAfter (readsFor branchOffice 7 pickedOrders+2))).1 := by
  refine ⟨branchOffice_admitted,by decide,by decide,by decide,fun restored => ?_⟩
  exact absurd (restored.places 12) (by decide)

end Elchi.Logistics
