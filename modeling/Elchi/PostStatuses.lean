import Elchi.PostDispatch
import Elchi.DepotRows
import Mathlib.Data.List.Induction
namespace Elchi.Logistics
open RowLock Orders Programs

-- What a request has read of the orders, and the statuses it has asked for, each with what it
-- had last read of that order or written to it.
structure Asked where
  orderId : Nat
  seen : Option OrderStatus
  target : OrderStatus
deriving DecidableEq, Repr
structure Book where
  known : Nat → Option OrderStatus
  asked : List Asked

def Book.learn (book : Book) (id : Nat) (status : OrderStatus) : Book :=
  {book with known:=fun key => if key = id then some status else book.known key}
def Book.learnAll (book : Book) (rows : Table Order) : Book := rows.foldl (fun book entry => book.learn entry.1 entry.2.status) book
def Book.ask (book : Book) (id : Nat) (target : OrderStatus) : Book := {book with asked:=book.asked ++ [⟨id,book.known id,target⟩]}
def Book.noteUpdate (book : Book) (id : Nat) (target : OrderStatus) : Except RpcError Unit → Book
  | .ok _ => (book.ask id target).learn id target
  | .error _ => book.ask id target
def Book.note (book : Book) : (action : Action) → Except RpcError (Reply action) → Book
  | .findOrderById id,.ok order => book.learn id order.status
  | .findOrderByQrToken _,.ok entry => book.learn entry.1 entry.2.status
  | .findOrders _,.ok rows => book.learnAll rows
  | .updateOrder id dto _,answer => match dto.status with
    | some target => book.noteUpdate id target answer
    | none => book
  | _,_ => book

-- Any answers whatsoever, but a list of orders has each order once and only those it was asked for.
abbrev Answers := (action : Action) → Except RpcError (Reply action)
def Sensible (answers : Answers) : Prop := ∀ sel rows,answers (.findOrders sel) = .ok rows →
  rows.Keyed ∧ ∀ entry ∈ rows,sel entry.1 entry.2 = true
def observe (answers : Answers) (action : Action) (book : Book) : Book × Except RpcError (Reply action) :=
  (book.note action (answers action),answers action)
def silence : Answers := fun _ => .error unavailable
def Request.asks (request : Request) (run : List Answers) : List Asked :=
  (request.operation.exec observe silence run ⟨fun _ => none,[]⟩).1.asked

-- The statuses from which each request is allowed what it asks for.
def Request.agrees (request : Request) (seen target : OrderStatus) : Bool :=
  match request with
  | .createPost _ _ => [.created,.new,.received].contains seen
  | .sendPost _ _ _ _ =>
    if target = .received then [.created,.new,.received].contains seen
    else [.received,.onTheRoad,.waitingCustomer,.waiting].contains seen
  | .receivePost _ _ _ => !([.created,.new,.returnedToMarket,.cancelledSent].contains seen)
  | .receiveOrderWithScannerCourier _ _ => !([.created,.new,.returnedToMarket,.cancelledSent].contains seen)
  | .assignOrdersToCourier _ _ _ _ => seen != .onTheRoad || target == .waiting
  | .dispatchPostToBranch _ _ _ _ _ => [.received,.onTheRoad,.waitingCustomer,.waiting].contains seen
  | .approveReturnRequests _ _ => false
  | _ => true

-- What each request asks for, and of orders in which status.
def Request.admits (request : Request) (seen target : OrderStatus) : Bool :=
  match request with
  | .createPost _ _ => target == .received
  | .sendPost _ _ _ _ => target == .received || target == .onTheRoad
  | .receivePost _ _ _ => (target == .waiting && seen != .waiting) || (target == .onTheRoad && seen == .onTheRoad)
  | .receivePostWithScanner _ _ => target == .waiting && seen == .onTheRoad
  | .receiveOrderWithScannerCourier _ _ => target == .waiting
  | .scanAssignOrder _ _ _ =>
    (seen == .new && target == .received) || ([.received,.waitingCustomer].contains seen && target == .onTheRoad)
  | .assignOrdersToCourier _ _ _ _ =>
    (seen == .new && target == .received) || ([.received,.waiting].contains seen && target == .onTheRoad) ||
      (seen == .onTheRoad && [.new,.received,.waiting].contains target)
  | .approveReturnRequests _ _ => seen == .waiting && target == .received
  | .dispatchPostToBranch _ _ _ _ _ => !([.cancelled,.closed].contains seen) && target == .onTheRoad
  | .createCanceledPost _ _ => isCancelledPostEligibleOrder seen && target == .cancelledSent
  | .createCanceledPostToHq _ _ => isCancelledPostEligibleOrder seen && target == .cancelledSent
  | .receiveCanceledPost _ _ _ => seen == .cancelledSent && isCancelledPostEligibleOrder target
  | _ => false

-- An admitted pair names one of two statuses to go to, or one to come from.
theorem admitted_exact (request : Request) {seen target : OrderStatus} (admitted : request.admits seen target = true) :
    isValidStatusTransition seen target = true ↔ request.agrees seen target = true := by
  cases request with
  | createPost _ _ =>
    obtain rfl : target = .received := by simpa [Request.admits] using admitted
    cases seen <;> exact Iff.rfl
  | sendPost _ _ _ _ =>
    obtain rfl | rfl : target = .received ∨ target = .onTheRoad := by simpa [Request.admits] using admitted
    · cases seen <;> exact Iff.rfl
    · cases seen <;> exact Iff.rfl
  | receivePost _ _ _ =>
    obtain ⟨rfl,-⟩ | ⟨rfl,rfl⟩ : (target = .waiting ∧ seen ≠ .waiting) ∨ (target = .onTheRoad ∧ seen = .onTheRoad) := by
      simpa [Request.admits] using admitted
    · cases seen <;> exact Iff.rfl
    · exact Iff.rfl
  | receivePostWithScanner _ _ =>
    obtain ⟨rfl,rfl⟩ : target = .waiting ∧ seen = .onTheRoad := by simpa [Request.admits] using admitted
    exact Iff.rfl
  | receiveOrderWithScannerCourier _ _ =>
    obtain rfl : target = .waiting := by simpa [Request.admits] using admitted
    cases seen <;> exact Iff.rfl
  | scanAssignOrder _ _ _ =>
    obtain ⟨rfl,rfl⟩ | ⟨rfl | rfl,rfl⟩ : (seen = .new ∧ target = .received) ∨
        ((seen = .received ∨ seen = .waitingCustomer) ∧ target = .onTheRoad) := by simpa [Request.admits] using admitted
    · exact Iff.rfl
    · exact Iff.rfl
    · exact Iff.rfl
  | assignOrdersToCourier _ _ _ _ =>
    obtain (⟨rfl,rfl⟩ | ⟨rfl | rfl,rfl⟩) | ⟨rfl,rfl | rfl | rfl⟩ : ((seen = .new ∧ target = .received) ∨
        ((seen = .received ∨ seen = .waiting) ∧ target = .onTheRoad)) ∨
        (seen = .onTheRoad ∧ (target = .new ∨ target = .received ∨ target = .waiting)) := by
      simpa [Request.admits] using admitted
    all_goals exact Iff.rfl
  | approveReturnRequests _ _ =>
    obtain ⟨rfl,rfl⟩ : seen = .waiting ∧ target = .received := by simpa [Request.admits] using admitted
    exact Iff.rfl
  | dispatchPostToBranch _ _ _ _ _ =>
    obtain ⟨-,rfl⟩ : ¬ (seen = .cancelled ∨ seen = .closed) ∧ target = .onTheRoad := by
      simpa [Request.admits] using admitted
    cases seen <;> exact Iff.rfl
  | createCanceledPost _ _ =>
    obtain ⟨rfl | rfl,rfl⟩ : (seen = .cancelled ∨ seen = .cancelledSent) ∧ target = .cancelledSent := by
      simpa [Request.admits,isCancelledPostEligibleOrder] using admitted
    · exact Iff.rfl
    · exact Iff.rfl
  | createCanceledPostToHq _ _ =>
    obtain ⟨rfl | rfl,rfl⟩ : (seen = .cancelled ∨ seen = .cancelledSent) ∧ target = .cancelledSent := by
      simpa [Request.admits,isCancelledPostEligibleOrder] using admitted
    · exact Iff.rfl
    · exact Iff.rfl
  | receiveCanceledPost _ _ _ =>
    obtain ⟨rfl,rfl | rfl⟩ : seen = .cancelledSent ∧ (target = .cancelled ∨ target = .cancelledSent) := by
      simpa [Request.admits,isCancelledPostEligibleOrder] using admitted
    · exact Iff.rfl
    · exact Iff.rfl
  | _ => simp [Request.admits] at admitted

-- Everything asked so far is as P says.
def Good (P : Asked → Prop) (book : Book) : Prop := ∀ asked ∈ book.asked,P asked
abbrev Watching (P : Asked → Prop) (Q : Except RpcError α → Book → Prop) (op : Operation α) (book : Book) : Prop :=
  op.Ends observe Sensible (Good P) Q book
abbrev Watched (P : Asked → Prop) (Q : α → Book → Prop) (op : Operation α) (book : Book) : Prop :=
  Watching P (fun result after => ∀ a,result = .ok a → Q a after) op book

@[simp] theorem known_learn (book : Book) (id key : Nat) (status : OrderStatus) :
    (book.learn id status).known key = if key = id then some status else book.known key := rfl
@[simp] theorem known_ask (book : Book) (id : Nat) (target : OrderStatus) : (book.ask id target).known = book.known := rfl
@[simp] theorem asked_learn (book : Book) (id : Nat) (status : OrderStatus) : (book.learn id status).asked = book.asked := rfl
theorem asked_learnAll (rows : Table Order) (book : Book) : (book.learnAll rows).asked = book.asked := by
  induction rows generalizing book with
  | nil => rfl
  | cons entry rest ih => exact ih _
theorem known_learnAll (rows : Table Order) (book : Book) (id : Nat) :
    (book.learnAll rows).known id = (((mapById [] rows).row id).map (·.status)).or (book.known id) := by
  induction rows using List.reverseRecOn generalizing book with
  | nil => rfl
  | append_singleton front entry ih =>
    have later : book.learnAll (front ++ [entry]) = (book.learnAll front).learn entry.1 entry.2.status := by
      simp [Book.learnAll]
    have map : mapById [] (front ++ [entry]) = (mapById [] front).put entry.1 entry.2 := by simp [mapById]
    rw [later,map,known_learn,row_put]
    by_cases same : id = entry.1
    · simp [same]
    · simp [same,Ne.symm same,ih]
theorem known_unlisted {rows : Table Order} {id : Nat} (absent : id ∉ rows.map (·.1)) (book : Book) :
    (book.learnAll rows).known id = book.known id := by
  induction rows generalizing book with
  | nil => rfl
  | cons entry rest ih =>
    obtain ⟨apart,later⟩ : id ≠ entry.1 ∧ id ∉ rest.map (·.1) := by simpa using absent
    exact (ih later (book.learn entry.1 entry.2.status)).trans (if_neg apart)
theorem known_listed {rows : Table Order} (keyed : rows.Keyed) {entry : Nat × Order} (member : entry ∈ rows) (book : Book) :
    (book.learnAll rows).known entry.1 = some entry.2.status := by
  induction rows generalizing book with
  | nil => cases member
  | cons first rest ih =>
    obtain ⟨apart,later⟩ := List.nodup_cons.mp keyed
    rcases List.mem_cons.mp member with rfl | inside
    · exact (known_unlisted apart (book.learn entry.1 entry.2.status)).trans (if_pos rfl)
    · exact ih later inside (book.learn first.1 first.2.status)
theorem good_ask {P : Asked → Prop} {book : Book} {id : Nat} {target : OrderStatus} (good : Good P book)
    (fits : P ⟨id,book.known id,target⟩) : Good P (book.ask id target) := by
  intro asked member
  rcases List.mem_append.mp member with old | new
  · exact good asked old
  · obtain rfl : asked = ⟨id,book.known id,target⟩ := by simpa using new
    exact fits

section Rules
variable {P : Asked → Prop} {α β : Type} {Q : β → Book → Prop} {book : Book}

theorem watched_bind {op : Operation α} {f : α → Operation β} (first : Watched P (fun a after => Watched P Q (f a) after) op book) :
    Watched P Q (op.bind f) book := by
  refine ends_bind (ends_mono first fun result after done => ?_)
  cases result with
  | ok a => exact done a rfl
  | error e => exact nofun
theorem watched_found {row : Option α} {error : RpcError} {f : α → Operation β} (each : ∀ a,row = some a → Watched P Q (f a) book) :
    Watched P Q ((found row error).bind f) book := by
  cases row with
  | some a => exact each a rfl
  | none => exact nofun
theorem watched_refuse {row : Option α} {error : α → RpcError} {f : Unit → Operation β} (passed : row = none → Watched P Q (f ()) book) :
    Watched P Q ((refuse row error).bind f) book := by
  cases row with
  | some a => exact nofun
  | none => exact passed rfl
theorem watched_require {fine : Bool} {error : RpcError} {f : Unit → Operation β} (passed : fine = true → Watched P Q (f ()) book) :
    Watched P Q ((require fine error).bind f) book := by
  cases fine with
  | true => exact passed rfl
  | false => exact nofun
-- One call: what it leaves in the book is good, and the procedure goes on with the answer.
theorem watching_call {action : Action} {R : Except RpcError (Reply action) → Book → Prop}
    (each : ∀ answers,Sensible answers →
      Good P (book.note action (answers action)) ∧ R (answers action) (book.note action (answers action))) :
    Watching P R (call action) book := each
theorem watched_call {action : Action} {f : Reply action → Operation β}
    (passed : ∀ answers a,Sensible answers → answers action = .ok a →
      Good P (book.note action (.ok a)) ∧ Watched P Q (f a) (book.note action (.ok a)))
    (failed : ∀ e,Good P (book.note action (.error e))) : Watched P Q ((call action).bind f) book := by
  refine ends_bind (watching_call fun answers sensible => ?_)
  cases answer : answers action with
  | ok a => exact passed answers a sensible answer
  | error e => exact ⟨failed e,nofun⟩
theorem watched_findOrderById {f : Order → Operation β} {id : Nat} (good : Good P book)
    (each : ∀ order,Watched P Q (f order) (book.learn id order.status)) : Watched P Q ((findOrderById id).bind f) book :=
  watched_call (fun _ order _ _ => ⟨good,each order⟩) fun _ => good
theorem watched_findByQrToken {f : Nat × Order → Operation β} {token : String} (good : Good P book)
    (each : ∀ entry,Watched P Q (f entry) (book.learn entry.1 entry.2.status)) :
    Watched P Q ((call (.findOrderByQrToken token)).bind f) book :=
  watched_call (fun _ entry _ _ => ⟨good,each entry⟩) fun _ => good
theorem watched_findOrders {f : Table Order → Operation β} {sel : Nat → Order → Bool} (good : Good P book)
    (each : ∀ rows,rows.Keyed → (∀ entry ∈ rows,sel entry.1 entry.2 = true) → Good P (book.learnAll rows) →
      Watched P Q (f rows) (book.learnAll rows)) : Watched P Q ((findOrders sel).bind f) book := by
  refine watched_call (fun answers rows sensible answer => ?_) fun _ => good
  obtain ⟨keyed,chosen⟩ := sensible sel rows answer
  have still : Good P (book.learnAll rows) := by
    intro asked member
    rw [asked_learnAll] at member
    exact good asked member
  exact ⟨still,each rows keyed chosen still⟩
theorem note_status {id : Nat} {dto : UpdateDto} {requesterId : Option Nat} {target : OrderStatus} (status : dto.status = some target)
    (answer : Except RpcError Unit) : book.note (.updateOrder id dto requesterId) answer = book.noteUpdate id target answer := by
  show (match dto.status with | some target => book.noteUpdate id target answer | none => book) = _
  rw [status]
theorem watching_updateOrder {Q : Except RpcError Unit → Book → Prop} {id : Nat} {dto : UpdateDto} {requesterId : Option Nat}
    {target : OrderStatus} (status : dto.status = some target) (good : Good P book) (fits : P ⟨id,book.known id,target⟩)
    (passed : Good P ((book.ask id target).learn id target) → Q (.ok ()) ((book.ask id target).learn id target))
    (stopped : ∀ e,Good P (book.ask id target) → Q (.error e) (book.ask id target)) :
    Watching P Q (updateOrder id dto requesterId) book := by
  refine watching_call fun answers _ => ?_
  have after : Good P (book.ask id target) := good_ask good fits
  rw [note_status status]
  cases answers (.updateOrder id dto requesterId) with
  | ok _ => exact ⟨after,passed after⟩
  | error e => exact ⟨after,stopped e after⟩
theorem watched_updateOrder {Q : Unit → Book → Prop} {id : Nat} {dto : UpdateDto} {requesterId : Option Nat} {target : OrderStatus}
    (status : dto.status = some target) (good : Good P book) (fits : P ⟨id,book.known id,target⟩)
    (passed : Good P ((book.ask id target).learn id target) → Q () ((book.ask id target).learn id target)) :
    Watched P Q (updateOrder id dto requesterId) book :=
  watching_updateOrder status good fits (fun after _ _ => passed after) fun _ _ => nofun

end Rules

-- Procedures that ask for no status: those that learn nothing of the orders, and all others.
abbrev Silent (P : Asked → Prop) (op : Operation α) : Prop := op.Steps observe Sensible (Good P) Eq
abbrev Mute (P : Asked → Prop) (op : Operation α) : Prop := op.Steps observe Sensible (Good P) fun _ _ => True

section Moving
variable {P : Asked → Prop} {R : Book → Book → Prop} {α β : Type} {f : α → Operation β} {Q : β → Book → Prop} {book : Book}

theorem watched_silent {op : Operation α} (silent : Silent P op) (good : Good P book) (each : ∀ a,Watched P Q (f a) book) :
    Watched P Q (op.bind f) book :=
  watched_bind (ends_mono (silent book good) fun _ _ moved a _ => moved.2 ▸ each a)
theorem moves_call {action : Action} (moved : ∀ book answer,(book.note action answer).asked = book.asked ∧ R book (book.note action answer)) :
    (call action).Steps observe Sensible (Good P) R :=
  steps_call fun book answers good _ => by
    obtain ⟨same,moves⟩ := moved book (answers action)
    exact ⟨fun asked member => good asked (same ▸ member),moves⟩

end Moving

variable {P : Asked → Prop}
-- The calls that read or write something else than orders.
theorem silent_call {action : Action} (quiet : ∀ (book : Book) answer,book.note action answer = book) : Silent P (call action) :=
  moves_call fun book answer => by rw [quiet]; exact ⟨rfl,rfl⟩
theorem silent_findPost (sel : Nat → Post → Bool) : Silent P (findPost sel) := silent_call fun _ _ => rfl
theorem silent_insertPost (post : Post) : Silent P (insertPost post) := silent_call fun _ _ => rfl
theorem silent_savePost (id : Nat) (post : Post) : Silent P (savePost id post) := silent_call fun _ _ => rfl
theorem silent_addToPost (id : Nat) (quantity total : Int) : Silent P (addToPost id quantity total) := silent_call fun _ _ => rfl
theorem silent_newestSentPost (courierId : Nat) : Silent P (newestSentPost courierId) := silent_call fun _ _ => rfl
theorem silent_assignment (userId : Nat) : Silent P (findBranchAssignmentByUserId userId) :=
  steps_lenient steady_eq (silent_call fun _ _ => rfl)
theorem silent_branchUsers (branchId : Nat) : Silent P (findBranchUsersByBranchId branchId) :=
  steps_lenient steady_eq (silent_call fun _ _ => rfl)
theorem silent_courier (id : Nat) : Silent P (findCourierById id) := steps_lenient steady_eq (silent_call fun _ _ => rfl)
theorem silent_hqBranch : Silent P findHqBranchId := silent_call fun _ _ => rfl
theorem silent_courierBranch (userId : Nat) : Silent P (findCourierBranchId userId) :=
  steps_courierBranch steady_eq (silent_call fun _ _ => rfl)
theorem silent_scopedBranch (requester : Requester) : Silent P (resolveScopedBranchId requester) :=
  steps_scopedBranch steady_eq (silent_call fun _ _ => rfl)
theorem silent_orInsert (row : Option (Nat × Post)) (fresh : Post) : Silent P (orInsert row fresh) := by
  cases row with
  | some entry => exact steps_done steady_eq _
  | none => exact steps_bind steady_eq (silent_insertPost _) fun _ => steps_done steady_eq _
theorem silent_saveRaised (row : Option (Nat × Post)) (fresh : Post) (quantity total : Int) :
    Silent P (saveRaised row fresh quantity total) := by
  cases row with
  | some entry => exact steps_bind steady_eq (silent_savePost _ _) fun _ => steps_done steady_eq _
  | none => exact steps_bind steady_eq (silent_insertPost _) fun _ => steps_done steady_eq _
theorem silent_saveAssigned (target : Nat × Post) (assigned : Table Order) (failure : Option RpcError) :
    Silent P (saveAssigned target assigned failure) := by
  cases failure with
  | some error => exact steps_done steady_eq _
  | none =>
    refine steps_bind steady_eq (steps_attempt (silent_savePost _ _)) fun result => ?_
    cases result with
    | ok _ => exact steps_done steady_eq _
    | error e => exact steps_done steady_eq _
theorem silent_findPostsOf (ids : List Nat) : Silent P (findPostsOf ids) := by
  unfold findPostsOf
  split
  · exact steps_done steady_eq _
  · exact silent_call fun _ _ => rfl
theorem silent_newPostOf (regionId : Nat) : Silent P (newPostOf regionId) := by
  refine steps_bind steady_eq (silent_findPost _) fun row => ?_
  cases row with
  | none => exact silent_insertPost _
  | some entry =>
    obtain ⟨id,post⟩ := entry
    dsimp only
    split
    · exact steps_bind steady_eq (silent_savePost _ _) fun _ => steps_done steady_eq _
    · exact steps_done steady_eq _
theorem silent_placeGroup (group : (PostStatus × Option Nat × Option Nat) × List Placement) : Silent P (placeGroup group) := by
  obtain ⟨⟨status,region,branch⟩,placements⟩ := group
  refine steps_bind steady_eq (steps_found steady_eq _ _) fun regionId => ?_
  refine steps_bind steady_eq (silent_findPost _) fun row => ?_
  cases row with
  | none =>
    exact steps_bind steady_eq (silent_insertPost _) fun _ =>
      steps_bind steady_eq (silent_savePost _ _) fun _ => steps_done steady_eq _
  | some entry =>
    obtain ⟨id,post⟩ := entry
    dsimp only
    split
    · exact steps_bind steady_eq (silent_savePost _ _) fun _ =>
        steps_bind steady_eq (silent_savePost _ _) fun _ => steps_done steady_eq _
    · exact steps_bind steady_eq (silent_savePost _ _) fun _ => steps_done steady_eq _
theorem silent_receiveOrdersIntoPosts (placements : List Placement) : Silent P (receiveOrdersIntoPosts placements) :=
  steps_bind steady_eq (steps_collect steady_eq silent_placeGroup _) fun _ => steps_done steady_eq _
theorem silent_deletePost (id : Nat) : Silent P (deletePost id) :=
  steps_bind steady_eq (silent_findPost _) fun _ =>
    steps_bind steady_eq (steps_found steady_eq _ _) fun _ => silent_call fun _ _ => rfl
theorem silent_isOrderInActiveCanceledPost (order : Order) (activePost : Option (Nat × Post)) (courierId branchId : Nat) :
    Silent P (isOrderInActiveCanceledPost order activePost courierId branchId) := by
  unfold isOrderInActiveCanceledPost
  split
  · exact steps_done steady_eq _
  · split
    · exact steps_done steady_eq _
    · split
      · exact steps_done steady_eq _
      · exact steps_bind steady_eq (silent_findPost _) fun _ => steps_done steady_eq _
theorem silent_remotely {op : Operation α} (silent : Silent P op) : Silent P (remotely op) :=
  steps_bind steady_eq silent fun _ => steps_bind steady_eq (silent_call fun _ _ => rfl) fun _ => steps_done steady_eq _

-- And those that read orders or change them, but not their status.
theorem mute_findOrderById (id : Nat) : Mute P (findOrderById id) := moves_call fun book answer => by
  cases answer with
  | ok order => exact ⟨rfl,trivial⟩
  | error e => exact ⟨rfl,trivial⟩
theorem mute_findOrders (sel : Nat → Order → Bool) : Mute P (findOrders sel) := moves_call fun book answer => by
  cases answer with
  | ok rows => exact ⟨asked_learnAll rows book,trivial⟩
  | error e => exact ⟨rfl,trivial⟩
theorem silent_updateOrder {id : Nat} {dto : UpdateDto} {requesterId : Option Nat} (status : dto.status = none) :
    Silent P (updateOrder id dto requesterId) := silent_call fun book answer => by
  show (match dto.status with | some target => book.noteUpdate id target answer | none => book) = book
  rw [status]
theorem mute_silent {op : Operation α} (silent : Silent P op) : Mute P op := fun book good =>
  ends_mono (silent book good) fun _ _ moved => ⟨moved.1,trivial⟩

end Elchi.Logistics
