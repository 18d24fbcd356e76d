import Elchi.PostStatuses
namespace Elchi.Logistics
open RowLock Orders Programs

section Loops
variable {P : Asked → Prop} {α β : Type} {Q : β → Book → Prop} {book : Book}

theorem watched_forEach {items : List α} {body : α → Operation Unit} {f : Unit → Operation β} (I : List α → Book → Prop)
    (step : ∀ x rest now,I (x :: rest) now → Watched P (fun _ after => I rest after) (body x) now) (start : I items book)
    (ended : ∀ after,I [] after → Watched P Q (f ()) after) : Watched P Q ((forEach body items).bind f) book := by
  refine ends_forEach_bind I (fun x rest now holds => ends_mono (step x rest now holds) fun result after done => ?_) start ended
  cases result with
  | ok a => exact done a rfl
  | error e => exact nofun
theorem watched_collect {γ : Type} {items : List α} {body : α → Operation γ} {f : List γ → Operation β} (I : List γ → List α → Book → Prop)
    (step : ∀ ys x rest now,I ys (x :: rest) now → Watched P (fun y after => I (ys ++ [y]) rest after) (body x) now) (start : I [] items book)
    (ended : ∀ ys after,I ys [] after → Watched P Q (f ys) after) : Watched P Q ((collect body items).bind f) book := by
  refine ends_collect_bind I (fun ys x rest now holds => ends_mono (step ys x rest now holds) fun result after done => ?_) start ended
  cases result with
  | ok a => exact done a rfl
  | error e => exact nofun
-- A loop that works on one order at a time, each order once.
theorem watched_each {items : List α} (key : α → Nat) {body : α → Operation Unit} {f : Unit → Operation β} (distinct : (items.map key).Nodup)
    (each : ∀ x ∈ items,∀ now,Good P now → now.known (key x) = book.known (key x) →
      Watched P (fun _ after => Good P after ∧ ∀ id,id ≠ key x → after.known id = now.known id) (body x) now) (good : Good P book)
    (ended : ∀ after,Good P after → (∀ id,id ∉ items.map key → after.known id = book.known id) → Watched P Q (f ()) after) :
    Watched P Q ((forEach body items).bind f) book := by
  refine watched_forEach (fun rest now => Good P now ∧ rest <:+ items ∧
    ∀ id,id ∈ rest.map key ∨ id ∉ items.map key → now.known id = book.known id) ?_ ⟨good,List.suffix_rfl,fun _ _ => rfl⟩ ?_
  · rintro x rest now ⟨fine,suffix,kept⟩
    have inside : x ∈ items := suffix.subset List.mem_cons_self
    have apart : key x ∉ rest.map key := by
      have once := (suffix.map key).sublist.nodup distinct
      exact (List.nodup_cons.mp once).1
    refine ends_mono (each x inside now fine (kept _ (.inl (by simp)))) fun result after done a success => ?_
    obtain ⟨still,same⟩ := done a success
    refine ⟨still,(List.suffix_cons x rest).trans suffix,fun id part => ?_⟩
    have other : id ≠ key x := by
      rintro rfl
      exact part.elim apart fun outside => outside (List.mem_map_of_mem inside)
    exact (same id other).trans (kept id (part.imp (fun member => by simp [member]) fun outside => outside))
  · rintro after ⟨fine,-,kept⟩
    exact ended after fine fun id outside => kept id (.inr outside)
theorem watched_updates {items : List α} (key : α → Nat) {dto : α → UpdateDto} {requesterId : Option Nat} {f : Unit → Operation β}
    {target : OrderStatus} (distinct : (items.map key).Nodup) (status : ∀ x,(dto x).status = some target)
    (fits : ∀ x ∈ items,P ⟨key x,book.known (key x),target⟩) (good : Good P book)
    (ended : ∀ after,Good P after → (∀ id,id ∉ items.map key → after.known id = book.known id) → Watched P Q (f ()) after) :
    Watched P Q ((forEach (fun x => updateOrder (key x) (dto x) requesterId) items).bind f) book := by
  refine watched_each key distinct (fun x member now fine same => ?_) good ended
  refine watched_updateOrder (status x) fine (same ▸ fits x member) fun after => ⟨after,fun id other => ?_⟩
  simp [other]
theorem watched_tolerate {op : Operation Unit} {Q : Unit → Book → Prop} (ends : Watching P (fun _ after => Q () after) op book) :
    Watched P Q (tolerate op) book :=
  ends_bind (ends_attempt (ends_mono ends fun _ _ done _ _ => done))

-- Reading each order of a list.
theorem watched_findAll {ids : List Nat} {f : List Order → Operation β} (good : Good P book)
    (ended : ∀ orders after,Good P after → (∀ id ∈ ids,after.known id ≠ none) → (∀ id,book.known id ≠ none → after.known id ≠ none) →
      Watched P Q (f orders) after) : Watched P Q ((collect findOrderById ids).bind f) book := by
  refine ends_collect_bind (fun _ rest now => Good P now ∧ (∀ id ∈ ids,id ∈ rest ∨ now.known id ≠ none) ∧
    ∀ id,book.known id ≠ none → now.known id ≠ none) ?_ ⟨good,fun id member => .inl member,fun _ known => known⟩ ?_
  · rintro orders id rest now ⟨fine,read,kept⟩
    refine watching_call fun answers _ => ?_
    cases answers (.findOrderById id) with
    | error e => exact ⟨fine,nofun⟩
    | ok order =>
      have after : Good P (now.learn id order.status) := fine
      have learnt : ∀ other,other = id ∨ now.known other ≠ none → (now.learn id order.status).known other ≠ none := by
        intro other either
        by_cases same : other = id
        · simp [same]
        · simpa [same] using either
      have reads : ∀ other ∈ ids,other ∈ rest ∨ (now.learn id order.status).known other ≠ none := by
        intro other member
        rcases read other member with left | before
        · rcases List.mem_cons.mp left with same | later
          · exact .inr (learnt other (.inl same))
          · exact .inl later
        · exact .inr (learnt other (.inr before))
      have still : ∀ other,book.known other ≠ none → (now.learn id order.status).known other ≠ none :=
        fun other known => learnt other (.inr (kept other known))
      exact ⟨after,after,reads,still⟩
  · rintro orders after ⟨fine,read,kept⟩
    exact ended orders after fine (fun id member => (read id member).resolve_left (by simp)) kept
theorem watched_findEach {ids : List Nat} {f : Table Order → Operation β} (distinct : ids.Nodup) (good : Good P book)
    (ended : ∀ rows after,Good P after → rows.map (·.1) = ids → (∀ entry ∈ rows,after.known entry.1 = some entry.2.status) →
      Watched P Q (f rows) after) : Watched P Q ((findEach ids).bind f) book := by
  refine ends_collect_bind (fun rows rest now => Good P now ∧ rows.map (·.1) ++ rest = ids ∧
    ∀ entry ∈ rows,now.known entry.1 = some entry.2.status) ?_ ⟨good,rfl,by simp⟩ ?_
  · rintro rows id rest now ⟨fine,whole,known⟩
    refine ends_bind (watching_call fun answers _ => ?_)
    cases answers (.findOrderById id) with
    | error e => exact ⟨fine,nofun⟩
    | ok order =>
      have after : Good P (now.learn id order.status) := fine
      have reads : ∀ entry ∈ rows ++ [(id,order)],(now.learn id order.status).known entry.1 = some entry.2.status := by
        intro entry member
        rcases List.mem_append.mp member with old | new
        · have apart : entry.1 ≠ id := by
            rintro rfl
            have both : (rows.map (·.1) ++ entry.1 :: rest).Nodup := whole ▸ distinct
            exact (List.nodup_append.mp both).2.2 _ (List.mem_map_of_mem old) _ List.mem_cons_self rfl
          simp [apart,known entry old]
        · obtain rfl : entry = (id,order) := by simpa using new
          simp
      have still : (rows ++ [(id,order)]).map (·.1) ++ rest = ids := by simpa using whole
      exact ⟨after,after,still,reads⟩
  · rintro rows after ⟨fine,whole,known⟩
    exact ended rows after fine (by simpa using whole) known

end Loops

-- A request that asks only for what it admits, of orders whose status it knows.
def Request.Fits (request : Request) (asked : Asked) : Prop := ∃ seen,asked.seen = some seen ∧ request.admits seen asked.target = true
abbrev Request.Asks (request : Request) (op : Operation α) (book : Book) : Prop := Watched request.Fits (fun _ _ => True) op book

theorem fits_any {request : Request} {asked : Asked} (known : asked.seen ≠ none)
    (admits : ∀ seen,request.admits seen asked.target = true) : request.Fits asked := by
  obtain ⟨seen,same⟩ := Option.ne_none_iff_exists'.mp known
  exact ⟨seen,same,admits seen⟩

section Operations
variable {book : Book}

theorem createPost_asks {courierId : Nat} {orderIDs : List Nat} (good : Good (Request.createPost courierId orderIDs).Fits book) :
    (Request.createPost courierId orderIDs).Asks (createPost courierId orderIDs) book := by
  refine watched_findAll good fun orders now good known _ => ?_
  refine watched_silent (silent_assignment _) good fun _ => ?_
  refine watched_silent (steps_findIfGiven steady_eq (fun _ => silent_findPost _) _) good fun post => ?_
  refine watched_silent (silent_saveRaised _ _ _ _) good fun saved => ?_
  exact watched_updates (fun orderId => orderId) (by simpa using Batches.eraseDups_nodup orderIDs) (fun _ => rfl)
    (fun orderId member => fits_any (known orderId member) fun _ => rfl) good fun _ _ _ _ _ => trivial

theorem sendPost_asks {id courierId : Nat} {orderIds : List Nat} {requesterId : Option Nat}
    (good : Good (Request.sendPost id courierId orderIds requesterId).Fits book) :
    (Request.sendPost id courierId orderIds requesterId).Asks (sendPost id courierId orderIds requesterId) book := by
  refine watched_silent (silent_findPost _) good fun row => ?_
  refine watched_found fun entry _ => ?_
  refine watched_silent (silent_courier _) good fun courier => ?_
  refine watched_require fun _ => watched_require fun _ => ?_
  refine watched_findOrders good fun rows keyed _ good => ?_
  refine watched_require fun _ => watched_require fun _ => ?_
  refine watched_findAll good fun selected now good known kept => ?_
  have distinct : (orderIds.eraseDups.map fun orderId => orderId).Nodup := by simpa using Batches.eraseDups_nodup orderIds
  dsimp only
  split
  · refine watched_updates (fun orderId => orderId) distinct (fun _ => rfl)
      (fun orderId member => fits_any (known orderId member) fun _ => rfl) good fun after good _ => ?_
    exact watched_silent (silent_savePost _ _) good fun _ _ _ => trivial
  · have remain : ((rows.filter fun entry => !orderIds.eraseDups.contains entry.1).map (·.1)).Nodup :=
      ((List.filter_sublist).map _).nodup keyed
    refine watched_updates (fun (entry : Nat × Order) => entry.1) remain (fun _ => rfl) (fun entry member => ?_) good
      fun between good same => ?_
    · refine fits_any (kept entry.1 ?_) fun _ => rfl
      rw [known_listed keyed (List.mem_of_mem_filter member)]
      exact Option.some_ne_none _
    refine watched_silent (silent_insertPost _) good fun sentId => ?_
    refine watched_updates (fun orderId => orderId) distinct (fun _ => rfl) (fun orderId member => ?_) good fun after good _ => ?_
    · have apart : orderId ∉ (rows.filter fun entry => !orderIds.eraseDups.contains entry.1).map (·.1) := by
        intro inside
        obtain ⟨entry,left,rfl⟩ := List.mem_map.mp inside
        have absent := (List.mem_filter.mp left).2
        rw [List.contains_iff_mem.mpr member] at absent
        cases absent
      exact fits_any ((same orderId apart).symm ▸ known orderId member) fun _ => rfl
    · exact watched_silent (silent_savePost _ _) good fun _ _ _ => trivial

theorem receivePost_asks {requester : Requester} {id : Nat} {orderIds : List Nat}
    (good : Good (Request.receivePost requester id orderIds).Fits book) :
    (Request.receivePost requester id orderIds).Asks (receivePost requester id orderIds) book := by
  refine watched_silent (silent_findPost _) good fun row => ?_
  refine watched_found fun entry _ => ?_
  refine watched_findOrders good fun rows keyed _ good => ?_
  refine watched_silent (silent_scopedBranch _) good fun scopedBranchId => ?_
  refine watched_require fun _ => watched_require fun _ => watched_require fun _ => ?_
  have listed : ∀ entry ∈ rows,(book.learnAll rows).known entry.1 = some entry.2.status :=
    fun entry member => known_listed keyed member book
  have distinct : (orderIds.eraseDups.map fun orderId => orderId).Nodup := by simpa using Batches.eraseDups_nodup orderIds
  refine watched_each (fun orderId => orderId) distinct (fun orderId member now fine same => ?_) good fun between good kept => ?_
  · cases found : Table.row rows orderId with
    | none => exact fun _ _ => ⟨fine,fun _ _ => rfl⟩
    | some target =>
      have here := listed (orderId,target) ((row_exact keyed).mpr found)
      refine ends_onlyIf (fun differs => ?_) fun _ _ _ => ⟨fine,fun _ _ => rfl⟩
      have waits : target.status ≠ .waiting := by simpa using differs
      refine watched_tolerate (watching_updateOrder rfl fine ⟨target.status,same.trans here,?_⟩ (fun after => ⟨after,fun other apart => ?_⟩)
        fun _ after => ⟨after,fun _ _ => rfl⟩)
      · simp [Request.admits,waits]
      · simp [apart]
  have remain : ((rows.filter fun entry => !orderIds.eraseDups.contains entry.1 && entry.2.status == .onTheRoad).map (·.1)).Nodup :=
    ((List.filter_sublist).map _).nodup keyed
  refine watched_each (fun (entry : Nat × Order) => entry.1) remain (fun entry member now fine same => ?_) good
    fun later good _ => ?_
  · obtain ⟨inside,test⟩ := List.mem_filter.mp member
    obtain ⟨apart,road⟩ : entry.1 ∉ orderIds.eraseDups ∧ entry.2.status = .onTheRoad := by simpa using test
    have here := (kept entry.1 (by simpa using apart)).trans (listed entry inside)
    refine watched_tolerate (watching_updateOrder rfl fine ⟨.onTheRoad,same.trans (road ▸ here),rfl⟩ (fun after => ⟨after,fun other apart => ?_⟩)
      fun _ after => ⟨after,fun _ _ => rfl⟩)
    simp [apart]
  have branches : ∀ branchId : Nat,Silent (Request.receivePost requester id orderIds).Fits (forEach (fun (entry : Nat × Order) => onlyIf (entry.2.branchId != some branchId)
      (tolerate (updateOrder entry.1 {branchId:=some (some branchId)} none))) rows) := fun branchId =>
    steps_forEach steady_eq (fun entry => steps_onlyIf steady_eq (steps_tolerate steady_eq (silent_updateOrder rfl))) rows
  refine watched_silent (steps_forEach steady_eq branches _) good fun _ => ?_
  refine watched_silent (silent_savePost _ _) good fun _ => ?_
  exact ends_mono (steps_collect steady_true mute_findOrderById _ _ good) fun _ _ _ _ _ => trivial

theorem receivePostWithScanner_asks {requester : Requester} {token : Nat}
    (good : Good (Request.receivePostWithScanner requester token).Fits book) :
    (Request.receivePostWithScanner requester token).Asks (receivePostWithScanner requester token) book := by
  refine watched_silent (silent_findPost _) good fun row => watched_found fun entry _ => ?_
  refine watched_require fun _ => watched_findOrders good fun rows keyed chosen good => watched_require fun _ => ?_
  refine watched_updates (fun (entry : Nat × Order) => entry.1) keyed (fun _ => rfl) (fun entry member => ?_) good fun after good _ => ?_
  · have road : entry.2.status = .onTheRoad := by simpa using (Bool.and_eq_true_iff.mp (chosen entry member)).2
    exact ⟨.onTheRoad,by rw [known_listed keyed member,road],rfl⟩
  · exact ends_mono (silent_savePost _ _ _ good) fun _ _ _ _ _ => trivial
theorem receiveOrderWithScannerCourier_asks {requester : Requester} {orderId : Nat}
    (good : Good (Request.receiveOrderWithScannerCourier requester orderId).Fits book) :
    (Request.receiveOrderWithScannerCourier requester orderId).Asks (receiveOrderWithScannerCourier requester orderId) book := by
  refine watched_findOrderById good fun order => watched_found fun postId _ => ?_
  refine watched_silent (silent_findPost _) good fun row => watched_found fun entry _ => ?_
  refine watched_bind (watched_updateOrder rfl good ⟨order.status,if_pos rfl,rfl⟩ fun good => ?_)
  refine watched_findOrders good fun rows _ _ good => ?_
  split
  · exact ends_mono (silent_savePost _ _ _ good) fun _ _ _ _ _ => trivial
  · exact fun _ _ => trivial

-- An order goes through RECEIVED on its way from NEW to the road.
theorem toRoad_watching {P : Asked → Prop} {β : Type} {Q : Except RpcError β → Book → Prop} {id : Nat} {status : OrderStatus}
    {first dto : UpdateDto} {requesterId other : Option Nat} {f : Unit → Operation β} (receives : first.status = some .received)
    (goes : dto.status = some .onTheRoad) (good : Good P book) (known : book.known id = some status)
    (fitsNew : status = .new → P ⟨id,some .new,.received⟩) (fits : P ⟨id,some (if status = .new then .received else status),.onTheRoad⟩)
    (ended : ∀ after,Good P after → after.known id = some .onTheRoad → (∀ key,key ≠ id → after.known key = book.known key) →
      Watching P Q (f ()) after)
    (stopped : ∀ e after,Good P after → (∀ key,key ≠ id → after.known key = book.known key) → Q (.error e) after) :
    Watching P Q ((onlyIf (status == .new) (updateOrder id first requesterId)).bind fun _ => (updateOrder id dto other).bind f) book := by
  have second : ∀ now : Book,Good P now → now.known id = some (if status = .new then .received else status) →
      (∀ key,key ≠ id → now.known key = book.known key) → Watching P Q ((updateOrder id dto other).bind f) now := by
    intro now good here same
    refine ends_bind (watching_updateOrder goes good (by rw [here]; exact fits) (fun good => ?_) fun e good => stopped e _ good same)
    exact ended _ good (by simp) fun key apart => by simp [apart,same key apart]
  refine ends_bind (ends_onlyIf (fun yes => ?_) fun no => ?_)
  · obtain rfl : status = .new := by simpa using yes
    refine watching_updateOrder receives good (known ▸ fitsNew rfl) (fun good => ?_) fun e good => stopped e _ good fun _ _ => rfl
    exact second _ good (by simp) fun key apart => by simp [apart]
  · have other : status ≠ .new := by simpa using no
    exact second book good (by rw [if_neg other]; exact known) fun _ _ => rfl

theorem scanAssignOrder_asks {time : Nat} {requester : Requester} {qrToken : String}
    (good : Good (Request.scanAssignOrder time requester qrToken).Fits book) :
    (Request.scanAssignOrder time requester qrToken).Asks (scanAssignOrder time requester qrToken) book := by
  refine watched_findByQrToken good fun entry => ?_
  obtain ⟨orderId,order⟩ := entry
  have good : Good (Request.scanAssignOrder time requester qrToken).Fits (book.learn orderId order.status) := good
  refine watched_silent (silent_courierBranch _) good fun courierBranchId => watched_found fun orderBranchId _ => ?_
  refine watched_require fun _ => watched_require fun _ => watched_require fun admitted => ?_
  refine watched_silent (steps_findIfGiven steady_eq (fun _ => silent_findPost _) _) good fun own => ?_
  refine watched_silent (steps_orFind steady_eq (silent_newestSentPost _) _) good fun target => ?_
  refine watched_silent (silent_orInsert _ _) good fun post => ?_
  dsimp only
  split
  · exact fun _ _ => trivial
  · rename_i fresh
    have status : order.status = .new ∨ order.status = .received ∨ order.status = .waitingCustomer := by
      rcases Bool.or_eq_true_iff.mp admitted with already | inside
      · exact absurd already fresh
      · simpa using inside
    refine toRoad_watching rfl rfl good (if_pos rfl) (fun _ => ⟨.new,rfl,rfl⟩) ⟨_,rfl,?_⟩ (fun after good _ _ => ?_) fun _ _ _ _ => nofun
    · rcases status with same | same | same
      all_goals simp [Request.admits,same]
    have counted : Silent (Request.scanAssignOrder time requester qrToken).Fits (tolerate (addToPost post.1 1 order.totalPrice >>= fun _ => findPost (byId post.1) >>= fun _ => pure ())) :=
      steps_tolerate steady_eq (steps_bind steady_eq (silent_addToPost _ _ _) fun _ =>
        steps_bind steady_eq (silent_findPost _) fun _ => steps_done steady_eq _)
    exact watched_silent (steps_onlyIf steady_eq counted) good fun _ _ _ => trivial

theorem assignOrder_watching {P : Asked → Prop} {Q : Except RpcError Unit → Book → Prop} {time requesterId courierId targetId : Nat}
    {entry : Nat × Order} (good : Good P book) (known : book.known entry.1 = some entry.2.status)
    (fitsNew : entry.2.status = .new → P ⟨entry.1,some .new,.received⟩)
    (fits : P ⟨entry.1,some (if entry.2.status = .new then .received else entry.2.status),.onTheRoad⟩)
    (passed : ∀ after,Good P after → after.known entry.1 = some .onTheRoad →
      (∀ key,key ≠ entry.1 → after.known key = book.known key) → Q (.ok ()) after)
    (stopped : ∀ e after,Good P after → (∀ key,key ≠ entry.1 → after.known key = book.known key) → Q (.error e) after) :
    Watching P Q (assignOrder time requesterId courierId targetId entry) book := by
  have ends : Watching P Q ((onlyIf (entry.2.status == .new) (updateOrder entry.1 {status:=some .received} (some requesterId))).bind fun _ =>
      (updateOrder entry.1
        {courierId:=some (some courierId),assignedAt:=some (some time),status:=some .onTheRoad,postId:=some (some targetId)}
        (some requesterId)).bind fun a => .done (.ok a)) book :=
    toRoad_watching rfl rfl good known fitsNew fits passed stopped
  simp only [bind_done] at ends
  exact ends
-- The posts are counted again, or what has been assigned is taken back.
def endAssigned (requester : Requester) (existing : Option (Nat × Post)) (target : Nat × Post) (assigned : Table Order)
    (failure : Option RpcError) : Operation AssignReply := do
  match ← saveAssigned target assigned failure with
  | none => pure {idempotent:=false,postId:=target.1,postCreated:=existing.isNone}
  | some error => do
    forEach (unassign requester.id) assigned
    onlyIf existing.isNone (tolerate (call (.removePost target.1)))
    fail error
theorem assignOrdersToCourier_asks {time courierId : Nat} {requester : Requester} {givenIds : List Nat}
    (good : Good (Request.assignOrdersToCourier time requester givenIds courierId).Fits book) :
    (Request.assignOrdersToCourier time requester givenIds courierId).Asks
      (assignOrdersToCourier time requester givenIds courierId) book := by
  refine watched_require fun _ => watched_silent (silent_assignment _) good fun row => watched_found fun assignment _ => ?_
  refine watched_require fun _ => watched_silent (silent_branchUsers _) good fun users => watched_require fun _ => ?_
  refine watched_findEach (Batches.eraseDups_nodup givenIds) good fun orders now good ids known => ?_
  have distinct : (orders.map (·.1)).Nodup := ids ▸ Batches.eraseDups_nodup givenIds
  refine watched_found fun firstBranchId _ => watched_require fun _ => watched_require fun _ => ?_
  refine watched_refuse fun admitted => watched_refuse fun _ => ?_
  have status : ∀ entry ∈ orders,entry.2.status = .new ∨ entry.2.status = .received ∨ entry.2.status = .waiting := by
    intro entry member
    have inside : ¬entry.2.status = .new → ¬entry.2.status = .received → entry.2.status = .waiting := by
      simpa using List.find?_eq_none.mp admitted entry member
    tauto
  refine watched_silent (silent_newestSentPost _) good fun existing => watched_silent (silent_orInsert _ _) good fun target => ?_
  -- What has been assigned is on the road, and what has not is as it was read.
  have ended : ∀ (assigned : Table Order) (failure : Option RpcError) (after : Book),
      Good (Request.assignOrdersToCourier time requester givenIds courierId).Fits after → assigned <+: orders →
      (∀ entry ∈ assigned,after.known entry.1 = some .onTheRoad) →
      (Request.assignOrdersToCourier time requester givenIds courierId).Asks (endAssigned requester existing target assigned failure) after := by
    intro assigned failure after good front road
    unfold endAssigned
    refine watched_silent (silent_saveAssigned _ _ _) good fun failure => ?_
    cases failure with
    | none => exact fun _ _ => trivial
    | some error =>
      refine watched_each (fun (entry : Nat × Order) => entry.1) ((front.sublist.map _).nodup distinct)
        (fun entry member now fine same => ?_) good fun later good _ => ?_
      · refine watched_tolerate (watching_updateOrder rfl fine ⟨.onTheRoad,same.trans (road entry member),?_⟩ (fun after => ⟨after,fun _ apart => ?_⟩)
          fun _ after => ⟨after,fun _ _ => rfl⟩)
        · rcases status entry (front.subset member) with same | same | same
          all_goals simp [Request.admits,same]
        · simp [apart]
      · exact watched_silent (steps_onlyIf steady_eq (steps_tolerate steady_eq (silent_call fun _ _ => rfl))) good fun _ pair none => by cases none
  refine watched_bind (ends_untilFailure (fun assigned rest now => Good (Request.assignOrdersToCourier time requester givenIds courierId).Fits now ∧
    assigned ++ rest = orders ∧ (∀ entry ∈ assigned,now.known entry.1 = some .onTheRoad) ∧
    ∀ entry ∈ rest,now.known entry.1 = some entry.2.status) ?_ ⟨good,rfl,by simp,known⟩ ?_)
  · rintro assigned entry rest now ⟨fine,whole,road,waits⟩
    have member : entry ∈ orders := whole ▸ List.mem_append_right _ List.mem_cons_self
    have front : assigned <+: orders := ⟨_,whole⟩
    have apart : ∀ other,other ∈ assigned ∨ other ∈ rest → other.1 ≠ entry.1 := by
      have once : (assigned.map (·.1) ++ entry.1 :: rest.map (·.1)).Nodup := by
        have split := distinct
        rwa [← whole,List.map_append,List.map_cons] at split
      obtain ⟨-,tail,across⟩ := List.nodup_append.mp once
      rintro other (before | later)
      · exact across _ (List.mem_map_of_mem before) _ List.mem_cons_self
      · rintro same
        exact (List.nodup_cons.mp tail).1 (same ▸ List.mem_map_of_mem later)
    refine assignOrder_watching fine (waits entry List.mem_cons_self) (fun _ => ⟨.new,rfl,rfl⟩) ⟨_,rfl,?_⟩ (fun after good here same => ?_)
      fun e after good same => ?_
    · rcases status entry member with same | same | same
      all_goals simp [Request.admits,same]
    · refine ⟨good,by simpa using whole,fun other inside => ?_,fun other inside => ?_⟩
      · rcases List.mem_append.mp inside with before | new
        · exact (same other.1 (apart other (.inl before))).trans (road other before)
        · obtain rfl : other = entry := by simpa using new
          exact here
      · exact (same other.1 (apart other (.inr inside))).trans (waits other (.tail _ inside))
    · rintro pair ⟨⟩
      exact ended assigned (some e) after good front fun other inside =>
        (same other.1 (apart other (.inl inside))).trans (road other inside)
  · rintro after ⟨good,-,road,-⟩ pair ⟨⟩
    exact ended orders none after good List.prefix_rfl road

theorem approveReturnRequests_asks {orderIds : List Nat} {requester : Option Requester}
    (good : Good (Request.approveReturnRequests orderIds requester).Fits book) :
    (Request.approveReturnRequests orderIds requester).Asks (approveReturnRequests orderIds requester) book := by
  refine watched_require fun _ => watched_findEach (Batches.eraseDups_nodup orderIds) good fun orders now good ids known => ?_
  have distinct : (orders.map (·.1)).Nodup := ids ▸ Batches.eraseDups_nodup orderIds
  refine watched_require fun _ => watched_silent (silent_findPostsOf _) good fun posts => watched_refuse fun _ => ?_
  generalize same : (orders.filter fun entry => returnAwaited entry.2).filterMap (fun entry =>
    (entry.2.regionId.or ((entry.2.postId.bind (Table.row posts)).bind (·.regionId))).map (·,entry)) = located
  have inside : ∀ entry ∈ located,entry.2 ∈ orders ∧ entry.2.2.status = .waiting := by
    intro entry member
    rw [← same] at member
    obtain ⟨row,listed,placed⟩ := List.mem_filterMap.mp member
    obtain ⟨stored,awaited⟩ := List.mem_filter.mp listed
    obtain ⟨region,-,rfl⟩ := Option.map_eq_some_iff.mp placed
    obtain ⟨waits,-⟩ : row.2.status = .waiting ∧ row.2.returnRequested = true := by simpa [returnAwaited] using awaited
    exact ⟨stored,waits⟩
  have once : (located.map (·.2.1)).Nodup := by
    rw [← same]
    refine (filterMap_names (fun (entry : Nat × Order) => entry.1) (fun row entry placed => ?_) _).nodup
      (((List.filter_sublist).map _).nodup distinct)
    obtain ⟨region,-,rfl⟩ := Option.map_eq_some_iff.mp placed
    rfl
  refine watched_forEach (fun rest now => Good (Request.approveReturnRequests orderIds requester).Fits now ∧
    rest <:+ groupBy (·.1) located ∧ ∀ group ∈ rest,∀ entry ∈ group.2,now.known entry.2.1 = some .waiting) ?_
    ⟨good,List.suffix_rfl,fun group member entry within => ?_⟩ fun _ _ _ _ => trivial
  · rintro group rest now ⟨fine,suffix,waits⟩
    have here : group ∈ groupBy (·.1) located := suffix.subset List.mem_cons_self
    have first : group.1 ∉ rest.map (·.1) := by
      have keys : ((group :: rest).map (·.1)).Nodup := (suffix.map _).sublist.nodup
        (by rw [groupBy_keys]; exact Batches.eraseDups_nodup _)
      exact (List.nodup_cons.mp keys).1
    have own : ((group.2.map (·.2)).map (·.1)).Nodup := by
      rw [groupBy_parts here,List.map_map]
      exact ((List.filter_sublist).map _).nodup once
    refine watched_silent (silent_findPost _) fine fun row => watched_silent (silent_orInsert _ _) fine fun post => ?_
    refine watched_updates (fun (entry : Nat × Order) => entry.1) own (fun _ => rfl) (fun entry member => ?_) fine fun after good same => ?_
    · obtain ⟨pair,within,rfl⟩ := List.mem_map.mp member
      exact ⟨.waiting,waits group List.mem_cons_self pair within,rfl⟩
    refine watched_silent (silent_addToPost _ _ _) good fun _ => watched_silent (silent_findPost _) good fun _ => ?_
    rintro _ ⟨⟩
    refine ⟨good,(List.suffix_cons group rest).trans suffix,fun other later entry within => ?_⟩
    refine (same entry.2.1 fun clash => ?_).trans (waits other (.tail _ later) entry within)
    obtain ⟨pair,among,equal⟩ := List.mem_map.mp clash
    obtain ⟨owner,belongs,rfl⟩ := List.mem_map.mp among
    have apart : group.1 ≠ other.1 := fun equal => first (equal ▸ List.mem_map_of_mem later)
    exact groupBy_apart once here (suffix.subset (.tail _ later)) apart belongs within equal
  · rw [groupBy_parts member] at within
    obtain ⟨stored,waits⟩ := inside entry (List.mem_filter.mp within).1
    rw [known _ stored,waits]

-- The lists of a group of canceled posts, one after another.
theorem findCanceledPostGroup_watched {P : Asked → Prop} {β : Type} {Q : β → Book → Prop} {f : Table Post × Table Order → Operation β}
    (good : Good P book) {id : Nat} {sourcePost : Post}
    (ended : ∀ (posts : Table Post) (listed : Table Order),(∀ entry ∈ listed,entry.2.status = .cancelledSent) → Good P (book.learnAll listed) →
      Watched P Q (f (posts,mapById [] listed)) (book.learnAll listed)) :
    Watched P Q ((findCanceledPostGroup id sourcePost).bind f) book := by
  refine watched_bind (watched_silent (silent_call fun _ _ => rfl) good fun candidates => ?_)
  refine watched_collect (fun groups _ now => Good P now ∧ now = book.learnAll groups.flatten ∧
    ∀ entry ∈ groups.flatten,entry.2.status = .cancelledSent) ?_ ⟨good,rfl,by simp⟩ ?_
  · rintro groups candidate rest now ⟨fine,read,sent⟩
    refine (bind_done (findOrders _)).symm ▸ watched_findOrders fine fun rows _ chosen good => ?_
    rintro _ ⟨⟩
    refine ⟨good,by simp [read,Book.learnAll],fun entry member => ?_⟩
    rw [List.flatten_append,List.flatten_singleton] at member
    rcases List.mem_append.mp member with before | new
    · exact sent entry before
    · simpa using (Bool.and_eq_true_iff.mp (chosen entry new)).2
  · rintro groups after ⟨fine,read,sent⟩ _ ⟨⟩
    rw [read]
    exact ended _ groups.flatten sent (read ▸ fine)

theorem getPostOrders_watched {P : Asked → Prop} {id : Nat} {requester : Requester} (good : Good P book) :
    Watched P (fun (rows : Table Order) after => Good P after ∧ Table.Keyed rows ∧ ∀ entry ∈ rows,after.known entry.1 = some entry.2.status)
      (getPostOrders id requester) book := by
  refine watched_silent (silent_findPost _) good fun row => watched_found fun entry _ => ?_
  refine watched_silent (silent_scopedBranch _) good fun scopedBranchId => ?_
  refine watched_findOrders good fun rows keyed _ good => ?_
  -- Where an order is in both lists, what was read last is what counts.
  have ended : ∀ (second : Table Order) (after : Book),Good P after →
      (∀ orderId,after.known orderId = (((mapById [] second).row orderId).map (·.status)).or ((book.learnAll rows).known orderId)) →
      ∀ entry ∈ mapById [] (rows ++ second),after.known entry.1 = some entry.2.status := by
    intro second after good read entry member
    have whole : mapById [] (rows ++ second) = mapById (mapById [] rows) second := by simp [mapById]
    have stored := (row_exact (keyed_mapById nothing_keyed _)).mp member
    rw [whole,row_mapById,mapById_row keyed] at stored
    rw [read]
    cases last : (mapById [] second).row entry.1 with
    | some order =>
      obtain rfl : order = entry.2 := by simpa [last] using stored
      rfl
    | none =>
      rw [last,Option.none_or] at stored
      rw [Option.map_none,Option.none_or]
      exact known_listed keyed ((row_exact keyed).mpr stored) book
  have finish : ∀ (second : Table Order) (after : Book),Good P after →
      (∀ orderId,after.known orderId = (((mapById [] second).row orderId).map (·.status)).or ((book.learnAll rows).known orderId)) →
      ∀ (fine saved : Bool) (error : RpcError) (saving : Operation Unit) (keep : Nat × Order → Bool),Silent P saving →
      Watched P (fun (rows : Table Order) after => Good P after ∧ Table.Keyed rows ∧ ∀ entry ∈ rows,after.known entry.1 = some entry.2.status)
        ((require fine error).bind fun _ => (onlyIf saved saving).bind fun _ => pure ((mapById [] (rows ++ second)).filter keep)) after := by
    intro second after good read fine saved error saving keep silent
    refine watched_require fun _ => watched_silent (steps_onlyIf steady_eq silent) good fun _ => ?_
    rintro _ ⟨⟩
    refine ⟨good,((List.filter_sublist).map _).nodup (keyed_mapById nothing_keyed _),fun entry member => ?_⟩
    exact ended second after good read entry (List.mem_filter.mp member).1
  refine watched_bind ?_
  unfold findCanceledOrders
  split
  · refine findCanceledPostGroup_watched good fun posts listed _ good => ?_
    rintro _ ⟨⟩
    refine finish _ _ good (fun orderId => ?_) _ _ _ _ _ (silent_savePost _ _)
    rw [known_learnAll,mapById_row (keyed_mapById nothing_keyed _)]
  · refine (bind_done (findOrders _)).symm ▸ watched_findOrders good fun second _ _ good => ?_
    rintro _ ⟨⟩
    exact finish _ _ good (fun orderId => known_learnAll _ _ _) _ _ _ _ _ (silent_savePost _ _)

theorem dispatchPostToBranch_asks {sourceBranchId postId destinationBranchId : Nat} {orderIds : List Nat} {requester : Requester}
    (good : Good (Request.dispatchPostToBranch sourceBranchId postId destinationBranchId orderIds requester).Fits book) :
    (Request.dispatchPostToBranch sourceBranchId postId destinationBranchId orderIds requester).Asks
      (dispatchPostToBranch sourceBranchId postId destinationBranchId orderIds requester) book := by
  refine watched_silent (silent_call fun _ _ => rfl) good fun _ => watched_bind (watched_bind (ends_mono (getPostOrders_watched good) ?_))
  rintro result now done orders success
  obtain ⟨good,keyed,known⟩ := done orders success
  refine watched_silent (silent_call fun _ _ => rfl) good fun _ => ?_
  rintro _ ⟨⟩
  refine watched_require fun _ => watched_require fun _ => watched_require fun _ => watched_require fun _ => watched_require fun _ => ?_
  refine watched_silent (silent_remotely (silent_receiveOrdersIntoPosts _)) good fun assignments => ?_
  refine watched_updates (fun (entry : Nat × Order) => entry.1)
    (((List.filter_sublist).map _).nodup (((List.filter_sublist).map _).nodup keyed)) (fun _ => rfl) (fun entry member => ?_) good
    fun after good _ => ?_
  · obtain ⟨candidate,open'⟩ := List.mem_filter.mp member
    refine ⟨entry.2.status,known entry (List.mem_filter.mp candidate).1,?_⟩
    have unblocked : entry.2.status ≠ .cancelled ∧ entry.2.status ≠ .closed := by
      simp only [Bool.not_eq_true',Bool.or_eq_false_iff,beq_eq_false_iff_ne] at open'
      exact ⟨open'.1.2,open'.2⟩
    simp [Request.admits,unblocked]
  · exact watched_silent (steps_onlyIf steady_eq (silent_remotely (silent_deletePost _))) good fun _ _ _ => trivial

-- An order that can go into a canceled post can do so again once it is in one.
def Eligible (book : Book) (orderId : Nat) : Prop := ∃ seen,book.known orderId = some seen ∧ isCancelledPostEligibleOrder seen = true
theorem watched_resend {P : Asked → Prop} {β : Type} {Q : β → Book → Prop} {f : Unit → Operation β} {rows : Table Order}
    {dto : Nat × Order → UpdateDto} {requesterId : Option Nat} (sent : ∀ entry,(dto entry).status = some .cancelledSent)
    (fits : ∀ orderId seen,isCancelledPostEligibleOrder seen = true → P ⟨orderId,some seen,.cancelledSent⟩) (good : Good P book)
    (eligible : ∀ entry ∈ rows,Eligible book entry.1)
    (ended : ∀ after,Good P after → (∀ orderId,Eligible book orderId → Eligible after orderId) → Watched P Q (f ()) after) :
    Watched P Q ((forEach (fun entry => updateOrder entry.1 (dto entry) requesterId) rows).bind f) book := by
  refine watched_forEach (fun rest now => Good P now ∧ rest <:+ rows ∧ ∀ orderId,Eligible book orderId → Eligible now orderId) ?_
    ⟨good,List.suffix_rfl,fun _ kept => kept⟩ fun after done => ended after done.1 done.2.2
  rintro entry rest now ⟨fine,suffix,kept⟩
  obtain ⟨seen,known,fit⟩ := kept entry.1 (eligible entry (suffix.subset List.mem_cons_self))
  refine watched_updateOrder (sent entry) fine (known ▸ fits entry.1 seen fit) fun good => ?_
  refine ⟨good,(List.suffix_cons entry rest).trans suffix,fun orderId before => ?_⟩
  by_cases same : orderId = entry.1
  · exact ⟨.cancelledSent,by simp [same],rfl⟩
  · obtain ⟨seen,known,fit⟩ := kept orderId before
    exact ⟨seen,by simp [same,known],fit⟩

theorem sortOrders_watched {P : Asked → Prop} {β : Type} {Q : β → Book → Prop} {f : Table Order × Table Order → Operation β}
    {activePost : Option (Nat × Post)} {courierId branchId : Nat} {orders : Table Order} (good : Good P book)
    (ended : ∀ toSend toRepair,(∀ entry ∈ toSend,entry ∈ orders) → (∀ entry ∈ toRepair,entry ∈ orders) → Watched P Q (f (toSend,toRepair)) book) :
    Watched P Q ((sortOrders activePost courierId branchId orders).bind f) book := by
  refine watched_bind ?_
  refine watched_collect (fun marked rest now => now = book ∧ marked.map (·.2) ++ rest = orders) ?_ ⟨rfl,rfl⟩ ?_
  · rintro marked entry rest _ ⟨rfl,whole⟩
    refine watched_silent (silent_isOrderInActiveCanceledPost _ _ _ _) good fun already => ?_
    rintro _ ⟨⟩
    exact ⟨rfl,by simpa using whole⟩
  · rintro marked _ ⟨rfl,whole⟩ _ ⟨⟩
    obtain rfl : marked.map (·.2) = orders := by simpa using whole
    refine ended _ _ (fun entry member => ?_) fun entry member => ?_
    · obtain ⟨pair,inside,rfl⟩ := List.mem_map.mp member
      exact List.mem_map_of_mem (List.mem_of_mem_filter inside)
    · obtain ⟨pair,inside,rfl⟩ := List.mem_map.mp member
      exact List.mem_map_of_mem (List.mem_of_mem_filter inside)

theorem fillCanceledPost_asks {P : Asked → Prop} {requester : Requester} {branchId : Nat} {canceledPost : Option (Nat × Post)}
    {orders : Table Order} (fits : ∀ orderId seen,isCancelledPostEligibleOrder seen = true → P ⟨orderId,some seen,.cancelledSent⟩)
    (good : Good P book) (eligible : ∀ entry ∈ orders,Eligible book entry.1) :
    Watched P (fun _ _ => True) (fillCanceledPost requester branchId canceledPost orders) book := by
  refine sortOrders_watched good fun toSend toRepair sends repairs => ?_
  refine watched_resend (fun _ => rfl) fits good (fun entry member => eligible entry (repairs entry member)) fun between good kept => ?_
  dsimp only
  split
  · exact fun _ _ => trivial
  · refine watched_silent (silent_orInsert _ _) good fun post => ?_
    refine watched_resend (fun _ => rfl) fits good (fun entry member => kept _ (eligible entry (sends entry member))) fun after good _ => ?_
    exact watched_silent (silent_savePost _ _) good fun _ _ _ => trivial

-- Reading the orders of a request for a canceled post: only those that may go into one get through.
theorem readEligible_watched {P : Asked → Prop} {β : Type} {Q : β → Book → Prop} {ids : List Nat} {f : Table Order → Operation β}
    {error : RpcError} {check : Nat → Order → Operation (Nat × Order)}
    (checked : ∀ orderId order P book,Good P book → Watched P (fun entry after => entry = (orderId,order) ∧ after = book) (check orderId order) book)
    (good : Good P book) (ended : ∀ orders after,Good P after → (∀ entry ∈ orders,Eligible after entry.1) → Watched P Q (f orders) after) :
    Watched P Q ((collect (fun orderId => (findOrderById orderId).bind fun order =>
      (require (isCancelledPostEligibleOrder order.status) error).bind fun _ => check orderId order) ids).bind f) book := by
  refine watched_collect (fun orders _ now => Good P now ∧ ∀ entry ∈ orders,Eligible now entry.1) ?_ ⟨good,by simp⟩ fun orders after done =>
    ended orders after done.1 done.2
  rintro orders orderId rest now ⟨fine,eligible⟩
  refine watched_findOrderById fine fun order => watched_require fun fit => ?_
  have after : Good P (now.learn orderId order.status) := fine
  refine ends_mono (checked orderId order P _ after) fun result later done entry success => ?_
  obtain ⟨rfl,rfl⟩ := done entry success
  refine ⟨after,fun other member => ?_⟩
  by_cases same : other.1 = orderId
  · exact ⟨order.status,by simp [same],fit⟩
  · rcases List.mem_append.mp member with before | new
    · obtain ⟨seen,known,fit⟩ := eligible other before
      exact ⟨seen,by simp [same,known],fit⟩
    · obtain rfl : other = (orderId,order) := by simpa using new
      exact absurd rfl same

theorem createCanceledPostToHq_asks {P : Asked → Prop} {requester : Requester} {orderIds : List Nat}
    (fits : ∀ orderId seen,isCancelledPostEligibleOrder seen = true → P ⟨orderId,some seen,.cancelledSent⟩) (good : Good P book) :
    Watched P (fun _ _ => True) (createCanceledPostToHq requester orderIds) book := by
  refine watched_require fun _ => watched_silent (silent_scopedBranch _) good fun row => watched_found fun sourceBranchId _ => ?_
  refine watched_silent silent_hqBranch good fun hqBranchId => watched_require fun _ => watched_require fun _ => ?_
  refine watched_silent (silent_findPost _) good fun canceledPost => ?_
  refine readEligible_watched (fun orderId order P book good => ?_) good fun orders after good eligible =>
    fillCanceledPost_asks fits good eligible
  refine watched_require fun _ => ?_
  split
  · refine watched_silent (silent_isOrderInActiveCanceledPost _ _ _ _) good fun already => watched_require fun _ => ?_
    rintro _ ⟨⟩
    exact ⟨rfl,rfl⟩
  · rintro _ ⟨⟩
    exact ⟨rfl,rfl⟩
theorem createCanceledPost_asks {P : Asked → Prop} {requester : Requester} {orderIds : List Nat}
    (fits : ∀ orderId seen,isCancelledPostEligibleOrder seen = true → P ⟨orderId,some seen,.cancelledSent⟩) (good : Good P book) :
    Watched P (fun _ _ => True) (createCanceledPost requester orderIds) book := by
  unfold createCanceledPost
  split
  · exact createCanceledPostToHq_asks fits good
  · refine watched_require fun _ => watched_silent (silent_courierBranch _) good fun branchId => ?_
    refine watched_silent (silent_findPost _) good fun canceledPost => ?_
    refine readEligible_watched (fun orderId order P book good => ?_) good fun orders after good eligible =>
      fillCanceledPost_asks fits good eligible
    refine watched_require fun _ => ?_
    rintro _ ⟨⟩
    exact ⟨rfl,rfl⟩

theorem openReceipt_watched {requester : Requester} {id : Nat} {orderIds : List Nat}
    (good : Good (Request.receiveCanceledPost requester id orderIds).Fits book) :
    Watched (Request.receiveCanceledPost requester id orderIds).Fits (fun receipt after =>
      Good (Request.receiveCanceledPost requester id orderIds).Fits after ∧
        ∀ entry ∈ receipt.remaining,after.known entry.1 = some .cancelledSent) (openReceipt requester id orderIds) book := by
  refine watched_silent (silent_findPost _) good fun row => watched_found fun entry _ => ?_
  refine watched_require fun _ => watched_silent (silent_scopedBranch _) good fun scopedBranchId => ?_
  refine watched_silent (?_ : Silent _ (branchOfPost entry.2)) good fun targetBranchId => ?_
  · unfold branchOfPost
    split
    · exact steps_done steady_eq _
    · exact silent_courierBranch _
  refine watched_silent silent_hqBranch good fun hqBranchId => watched_require fun _ => watched_require fun _ => ?_
  refine findCanceledPostGroup_watched good fun posts listed sent good => watched_require fun known => ?_
  have stored : ∀ row ∈ mapById [] listed,(book.learnAll listed).known row.1 = some .cancelledSent := by
    intro row member
    have status : row.2.status = .cancelledSent :=
      (mem_mapById member).elim (fun before => by cases before) (sent row)
    rw [known_learnAll,(row_exact (keyed_mapById nothing_keyed listed)).mp member]
    simp [status]
  refine watched_updates (fun orderId => orderId) (by simpa using Batches.eraseDups_nodup orderIds) (fun _ => rfl)
    (fun orderId member => ?_) good fun after good same => ?_
  · have inside : orderId ∈ (mapById [] listed).map (·.1) := by
      have all := List.filter_eq_nil_iff.mp (List.isEmpty_iff.mp known) orderId member
      simpa using all
    obtain ⟨row,present,rfl⟩ := List.mem_map.mp inside
    exact ⟨.cancelledSent,stored row present,rfl⟩
  · rintro _ ⟨⟩
    refine ⟨good,fun row member => ?_⟩
    obtain ⟨present,absent⟩ := List.mem_filter.mp member
    exact (same row.1 (by simpa using absent)).trans (stored row present)

theorem requeueRest_asks {requester : Requester} {id : Nat} {orderIds : List Nat} {receipt : Receipt}
    (good : Good (Request.receiveCanceledPost requester id orderIds).Fits book)
    (waiting : ∀ entry ∈ receipt.remaining,book.known entry.1 = some .cancelledSent) :
    (Request.receiveCanceledPost requester id orderIds).Asks (requeueRest requester receipt) book := by
  have sends : ∀ orderId,(Request.receiveCanceledPost requester id orderIds).Fits ⟨orderId,some .cancelledSent,.cancelledSent⟩ :=
    fun orderId => ⟨.cancelledSent,rfl,rfl⟩
  unfold requeueRest
  split
  · exact fun _ _ => trivial
  refine watched_silent (?_ : Silent _ (findFallbackBranch receipt)) good fun fallbackBranchId => ?_
  · unfold findFallbackBranch
    split
    · exact steps_bind steady_eq (silent_assignment _) fun _ => steps_done steady_eq _
    · exact steps_done steady_eq _
  unfold requeueUnreceivedCanceledOrders
  split
  · exact nofun
  rw [← bind_done (collect _ _)]
  generalize same : receipt.remaining.filterMap (fun entry =>
    (returnBranch receipt fallbackBranchId entry.2).map fun branchId => ((branchId,entry.2.regionId.or receipt.post.regionId),entry)) = located
  refine watched_collect (fun _ rest now => Good (Request.receiveCanceledPost requester id orderIds).Fits now ∧
    rest <:+ groupBy (·.1) located ∧ ∀ entry ∈ receipt.remaining,now.known entry.1 = some .cancelledSent) ?_
    ⟨good,List.suffix_rfl,waiting⟩ fun _ _ _ _ _ => trivial
  rintro _ group rest now ⟨fine,suffix,waiting⟩
  have inside : ∀ entry ∈ group.2.map (·.2),entry ∈ receipt.remaining := by
    intro entry member
    obtain ⟨pair,among,rfl⟩ := List.mem_map.mp member
    rw [groupBy_parts (suffix.subset List.mem_cons_self)] at among
    have listed := (List.mem_filter.mp among).1
    rw [← same] at listed
    obtain ⟨row,present,placed⟩ := List.mem_filterMap.mp listed
    obtain ⟨branchId,-,rfl⟩ := Option.map_eq_some_iff.mp placed
    exact present
  refine watched_silent (silent_findPost _) fine fun row => watched_silent (silent_orInsert _ _) fine fun post => ?_
  refine watched_forEach (fun orders now => Good (Request.receiveCanceledPost requester id orderIds).Fits now ∧
    orders <:+ group.2.map (·.2) ∧ ∀ entry ∈ receipt.remaining,now.known entry.1 = some .cancelledSent) ?_
    ⟨fine,List.suffix_rfl,waiting⟩ fun after done => ?_
  · rintro entry orders now ⟨fine,within,waiting⟩
    have here := waiting entry (inside entry (within.subset List.mem_cons_self))
    refine watched_updateOrder rfl fine (here ▸ sends entry.1) fun good => ?_
    refine ⟨good,(List.suffix_cons entry orders).trans within,fun other member => ?_⟩
    by_cases equal : other.1 = entry.1
    · simp [equal]
    · simp [equal,waiting other member]
  · obtain ⟨good,-,waiting⟩ := done
    refine watched_silent (silent_savePost _ _) good fun _ => ?_
    rintro _ ⟨⟩
    exact ⟨good,(List.suffix_cons group rest).trans suffix,waiting⟩

theorem silent_closePost {P : Asked → Prop} (entry : Nat × Post) : Silent P (closePost entry) := by
  refine steps_bind steady_eq (steps_attempt (silent_savePost _ _)) fun result => ?_
  cases result with
  | ok _ => exact steps_done steady_eq _
  | error e =>
    exact steps_bind steady_eq (silent_call fun _ _ => rfl) fun _ =>
      steps_bind steady_eq (silent_findPost _) fun _ => steps_done steady_eq _
theorem receiveCanceledPost_asks {requester : Requester} {id : Nat} {orderIds : List Nat}
    (good : Good (Request.receiveCanceledPost requester id orderIds).Fits book) :
    (Request.receiveCanceledPost requester id orderIds).Asks (receiveCanceledPost requester id orderIds) book := by
  refine watched_bind (ends_mono (openReceipt_watched good) fun result now done receipt success => ?_)
  obtain ⟨good,waiting⟩ := done receipt success
  refine watched_silent (steps_forEach steady_eq silent_closePost _) good fun _ => ?_
  exact watched_bind (ends_mono (requeueRest_asks good waiting) fun _ _ _ _ _ _ _ => trivial)

-- The requests that ask for no status at all.
theorem collapseRegion_mute {P : Asked → Prop} (createdAt : Nat → Nat) (regionPosts : Table Post) :
    Mute P (collapseRegion createdAt regionPosts) := by
  unfold collapseRegion
  split
  · exact steps_done steady_true _
  · dsimp only
    split
    · exact steps_bind steady_true (mute_silent (silent_savePost _ _)) fun _ => steps_done steady_true _
    · refine steps_bind steady_true (mute_findOrders _) fun duplicateOrders => ?_
      refine steps_bind steady_true (steps_forEach steady_true (fun _ => mute_silent (silent_updateOrder rfl)) _) fun _ => ?_
      refine steps_bind steady_true (mute_findOrders _) fun allGroupOrders => ?_
      refine steps_bind steady_true (steps_forEach steady_true (fun _ => mute_silent (silent_call fun _ _ => rfl)) _) fun _ => ?_
      exact steps_bind steady_true (mute_silent (silent_savePost _ _)) fun _ => steps_done steady_true _
theorem newPosts_mute {P : Asked → Prop} : Mute P newPosts := by
  refine steps_bind steady_true (mute_findOrders _) fun received => ?_
  refine steps_bind steady_true (steps_forEach steady_true (fun group => ?_) _) fun _ => ?_
  · refine steps_bind steady_true (mute_silent (silent_newPostOf _)) fun id => ?_
    refine steps_bind steady_true (steps_forEach steady_true (fun _ => mute_silent (silent_updateOrder rfl)) _) fun _ => ?_
    exact steps_bind steady_true (mute_silent (silent_addToPost _ _ _)) fun _ =>
      steps_bind steady_true (mute_silent (silent_findPost _)) fun _ => steps_done steady_true _
  refine steps_bind steady_true (mute_silent (silent_call fun _ _ => rfl)) fun posts => ?_
  refine steps_bind steady_true (steps_bind steady_true (steps_collect steady_true (fun _ => collapseRegion_mute _ _) _) fun _ =>
    steps_done steady_true _) fun kept => ?_
  split
  · exact steps_done steady_true _
  · exact steps_bind steady_true (mute_findOrders _) fun _ => steps_done steady_true _
theorem rejectReturnRequests_mute {P : Asked → Prop} (orderIds : List Nat) (requester : Option Requester) : Mute P (rejectReturnRequests orderIds requester) := by
  refine steps_bind steady_true (steps_require steady_true _ _) fun _ => ?_
  refine steps_bind steady_true (steps_collect steady_true (fun orderId => ?_) _) fun rejected =>
    steps_bind steady_true (steps_require steady_true _ _) fun _ => steps_done steady_true _
  refine steps_bind steady_true (mute_findOrderById _) fun order => ?_
  split
  · exact steps_bind steady_true (mute_silent (silent_updateOrder rfl)) fun _ => steps_done steady_true _
  · exact steps_done steady_true _
theorem mute_asks {request : Request} {op : Operation α} (mute : Mute request.Fits op) (good : Good request.Fits book) : request.Asks op book :=
  ends_mono (mute book good) fun _ _ _ _ _ => trivial

theorem answered_asks {request : Request} {op : Operation α} (asks : request.Asks op book) : request.Asks (answered op) book :=
  watched_bind (ends_mono asks fun _ _ _ _ _ _ _ => trivial)
theorem request_asks (request : Request) (good : Good request.Fits book) : request.Asks request.operation book := by
  have resends : ∀ (request : Request) orderId seen,(∀ seen,request.admits seen .cancelledSent = isCancelledPostEligibleOrder seen) →
      isCancelledPostEligibleOrder seen = true → request.Fits ⟨orderId,some seen,.cancelledSent⟩ :=
    fun request orderId seen same fit => ⟨seen,rfl,(same seen).trans fit⟩
  cases request with
  | createPost _ _ => exact answered_asks (createPost_asks good)
  | newPosts => exact answered_asks (mute_asks newPosts_mute good)
  | receiveOrdersIntoPosts placements => exact answered_asks (mute_asks (mute_silent (silent_receiveOrdersIntoPosts placements)) good)
  | sendPost _ _ _ _ => exact answered_asks (sendPost_asks good)
  | receivePost _ _ _ => exact answered_asks (receivePost_asks good)
  | receivePostWithScanner _ _ => exact receivePostWithScanner_asks good
  | receiveOrderWithScannerCourier _ _ => exact receiveOrderWithScannerCourier_asks good
  | scanAssignOrder _ _ _ => exact answered_asks (scanAssignOrder_asks good)
  | assignOrdersToCourier _ _ _ _ => exact answered_asks (assignOrdersToCourier_asks good)
  | approveReturnRequests _ _ => exact answered_asks (approveReturnRequests_asks good)
  | rejectReturnRequests orderIds requester => exact answered_asks (mute_asks (rejectReturnRequests_mute orderIds requester) good)
  | deletePost id => exact mute_asks (mute_silent (silent_deletePost id)) good
  | dispatchPostToBranch _ _ _ _ _ => exact answered_asks (dispatchPostToBranch_asks good)
  | createCanceledPost _ _ =>
    exact answered_asks (createCanceledPost_asks (fun orderId seen => resends _ orderId seen fun seen => Bool.and_true _) good)
  | createCanceledPostToHq _ _ =>
    exact answered_asks (createCanceledPostToHq_asks (fun orderId seen => resends _ orderId seen fun seen => Bool.and_true _) good)
  | receiveCanceledPost _ _ _ => exact answered_asks (receiveCanceledPost_asks good)

end Operations

end Elchi.Logistics
