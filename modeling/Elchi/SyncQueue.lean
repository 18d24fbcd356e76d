import Elchi.ProviderWebhooks
namespace Elchi.Syncing
open RowLock hiding Machine Turn
open Interleaving
open Webhooks (truthy)

inductive SyncStatus where
  | pending | processing | completed | failed | permanentlyFailed
deriving DecidableEq, Repr
inductive SyncAction where
  | sold | canceled | paid | rollback | waiting | create | update | delete
deriving DecidableEq, Repr
def SyncAction.name : SyncAction → String
  | .sold => "sold"
  | .canceled => "canceled"
  | .paid => "paid"
  | .rollback => "rollback"
  | .waiting => "waiting"
  | .create => "create"
  | .update => "update"
  | .delete => "delete"
def SyncAction.isGeneric (action : SyncAction) : Bool := [SyncAction.create,.update,.delete].contains action

-- A row of sync_queue. Times are in milliseconds.
structure SyncItem where
  orderId : Option Nat
  integrationId : Nat
  action : SyncAction
  entityType : Option String
  entityId : Option String
  newStatus : Option String
  externalStatus : Option String
  externalOrderId : Option String
  status : SyncStatus
  attempts : Nat
  retryCount : Nat
  maxAttempts : Nat
  lastError : Option String
  nextRetryAt : Option Nat
  createdAt : Nat
deriving DecidableEq, Repr
structure Integration where
  id : Nat
  slug : String
  isDeleted : Bool
  statusMapping : List (String × String)
  endpoint : Option String
deriving DecidableEq, Repr
structure EnqueueInput where
  orderId : Option Nat
  externalOrderId : Option String
  operator : Option String
  integrationId : Option Nat
  action : SyncAction
  entityType : Option String
  entityId : Option String
  newStatus : Option String
deriving DecidableEq, Repr

-- The stored integrations and the case conversions of the platform.
structure Env where
  lower : String → String
  upper : String → String
  integrations : List Integration

section Enqueue
variable (env : Env)

def resolveExternalStatus (integration : Integration) (action : SyncAction) (newStatus : Option String) : String :=
  let mapped := fun key => truthy ((integration.statusMapping.find? fun entry => entry.1 == key).map (·.2))
  let candidates := ([newStatus,some action.name].filterMap truthy)
  (candidates.findSome? fun candidate => ((mapped candidate).or (mapped (env.lower candidate))).or (mapped (env.upper candidate))).getD
    (newStatus.getD action.name)
def enqueueRefusal (input : EnqueueInput) : Option RpcError :=
  let blank := fun text : Option String => (jsTrim (text.getD "")).isEmpty
  if !input.action.isGeneric && input.orderId.isNone then some (badRequest "order_id is required")
  else if input.action.isGeneric && input.integrationId.isNone then some (badRequest "integration_id is required")
  else if input.action.isGeneric && blank input.entityType then some (badRequest "entity_type is required")
  else if input.action.isGeneric && blank input.entityId then some (badRequest "entity_id is required")
  else none
def slugFromOperator (operator : Option String) : String :=
  let operator := (jsTrim (operator.getD "")).toList
  if "external_".toList.isPrefixOf operator then String.ofList (operator.drop "external_".length) else ""
def enqueueIntegration (input : EnqueueInput) : Option Integration :=
  env.integrations.find? fun integration => !integration.isDeleted && match input.integrationId with
    | some id => integration.id == id
    | none => integration.slug == slugFromOperator input.operator
-- The initial attempt and three retries.
def newItem (integration : Integration) (input : EnqueueInput) : SyncItem :=
  {orderId:=input.orderId,integrationId:=integration.id,action:=input.action,
    entityType:=if input.action.isGeneric then input.entityType else none,
    entityId:=if input.action.isGeneric then input.entityId else none,newStatus:=input.newStatus,
    externalStatus:=if input.action.isGeneric then none else some (resolveExternalStatus env integration input.action input.newStatus),
    externalOrderId:=if input.action.isGeneric then none else truthy input.externalOrderId,
    status:=.pending,attempts:=0,retryCount:=0,maxAttempts:=4,lastError:=none,nextRetryAt:=none,createdAt:=0}

end Enqueue

-- The order of the external system a request is about, and the status it reports.
def SyncItem.target (item : SyncItem) : Nat × String :=
  (item.integrationId,((item.externalOrderId.or (item.orderId.map toString)).or item.entityId).getD "")
def SyncItem.sent (item : SyncItem) : String := (item.externalStatus.or item.newStatus).getD item.action.name

-- What processQueueItem makes of the row it has in hand.
def getRetryDelayMs (attempt : Nat) : Nat := if attempt ≤ 1 then 60000 else if attempt = 2 then 5*60000 else 15*60000
def SyncItem.begun (item : SyncItem) : SyncItem :=
  {item with status:=.processing,attempts:=item.attempts+1,retryCount:=min (item.maxAttempts-1) item.attempts,lastError:=none}
def SyncItem.abandoned (error : String) (item : SyncItem) : SyncItem :=
  {item with status:=.failed,lastError:=some error,nextRetryAt:=none}
def SyncItem.completed (item : SyncItem) : SyncItem := {item with status:=.completed,lastError:=none,nextRetryAt:=none}
def SyncItem.retried (now : Nat) (message : String) (item : SyncItem) : SyncItem :=
  if item.attempts < item.maxAttempts then
    {item with
      status:=.pending,lastError:=some message,retryCount:=min (item.maxAttempts-1) item.attempts,
      nextRetryAt:=some (now+getRetryDelayMs item.attempts)}
  else {item with status:=.permanentlyFailed,lastError:=some message,retryCount:=item.maxAttempts-1,nextRetryAt:=none}
-- And retrySyncQueue.
def SyncItem.reset (item : SyncItem) : SyncItem := {item with status:=.pending,retryCount:=0,nextRetryAt:=none}

-- One run of processPendingSyncQueue.
structure Round where
  limit : Nat
  integrationId : Option Nat
  processed : Nat
deriving DecidableEq, Repr
-- How far it is with the row in hand: the statements from the mark 'processing' to the history entry.
inductive Stage where
  | starting | loading | abandoning | calling | completing | crediting | recording | failing | logging
deriving DecidableEq, Repr
inductive Runner where
  | enqueueing (input : EnqueueInput)
  | inserting (item : SyncItem)
  | finding (queueId : Nat) (integrationId : Option Nat)
  | findingAll (integrationId : Option Nat)
  | resetting (rows : Table SyncItem) (round : Round)
  | locking (round : Round)
  | picking (round : Round)
  | working (round : Round) (id : Nat) (item : SyncItem) (stage : Stage)
  | unlocking (round : Round)
  | done (processed : Nat)
  | busy
  | refused (error : RpcError)
  | failed
  | dead
inductive Request where
  | enqueue (input : EnqueueInput)
  | process (limit : Nat) (integrationId : Option Nat)
  | retryOne (queueId : Nat) (integrationId : Option Nat)
  | retryAll (integrationId : Option Nat)

-- What has happened, oldest first: an attempt that was marked, a request the external system has
-- accepted, a row put back by hand.
inductive Event where
  | attempted (id : Nat)
  | accepted (id : Nat) (item : SyncItem)
  | putBack (id : Nat)
deriving DecidableEq, Repr
-- `lock` is the request whose session holds the advisory lock.
structure Board where
  now : Nat
  items : Table SyncItem
  nextItemId : Nat
  lock : Option Nat
  trail : List Event
def Board.start (now : Nat) : Board := ⟨now,[],1,none,[]⟩

def Request.runner : Request → Runner
  | .enqueue input => .enqueueing input
  | .process limit integrationId => .locking ⟨limit,integrationId,0⟩
  | .retryOne queueId integrationId => .finding queueId integrationId
  | .retryAll integrationId => .findingAll integrationId
def Runner.answered : Runner → Bool
  | .done _ | .busy | .refused _ | .failed | .dead => true
  | _ => false

def oldestFirst (rows : Table SyncItem) : Table SyncItem := rows.mergeSort fun left right => left.2.createdAt ≤ right.2.createdAt
def inIntegration (integrationId : Option Nat) (item : SyncItem) : Bool := integrationId.all fun id => item.integrationId == id
def eligible (now : Nat) (integrationId : Option Nat) (item : SyncItem) : Bool :=
  item.status == .pending && item.nextRetryAt.all (fun due => due ≤ now) && inIntegration integrationId item
def gaveUp (integrationId : Option Nat) (item : SyncItem) : Bool :=
  (item.status == .failed || item.status == .permanentlyFailed) && inIntegration integrationId item

def Board.save (g : Board) (id : Nat) (item : SyncItem) : Board := {g with items:=(Write.update id fun _ => item).apply g.items}
def Board.note (g : Board) (event : Event) : Board := {g with trail:=g.trail ++ [event]}
def Board.insert (g : Board) (item : SyncItem) : Board :=
  {g with items:=g.items.put g.nextItemId {item with createdAt:=g.now},nextItemId:=g.nextItemId+1}
def Board.unlock (g : Board) (who : Nat) : Board := if g.lock = some who then {g with lock:=none} else g

section Statements
variable (env : Env)

-- The statement of processQueueItem at each stage, when it succeeds; the request to the external
-- system is one of them.
def workOn (g : Board) (round : Round) (id : Nat) (item : SyncItem) : Stage → Board × Runner
  | .starting => ((g.save id item.begun).note (.attempted id),.working round id item.begun .loading)
  | .loading => match env.integrations.find? fun integration => integration.id == item.integrationId && !integration.isDeleted with
    | none => (g,.working round id (item.abandoned "integration not found for queue item") .abandoning)
    | some integration => match truthy integration.endpoint with
      | none => (g,.working round id (item.abandoned "status_sync_config.external_update.endpoint is required") .abandoning)
      | some _ => (g,.working round id item .calling)
  | .abandoning => (g.save id item,.working round id item .logging)
  | .calling => (g.note (.accepted id item),.working round id item.completed .completing)
  | .completing => (g.save id item,.working round id item .crediting)
  | .crediting => (g,.working round id item .recording)
  | .recording => (g,.picking {round with processed:=round.processed+1})
  | .failing => (g.save id item,.working round id item .logging)
  | .logging => (g,.picking {round with processed:=round.processed+1})
def Runner.go (who : Nat) (g : Board) : Runner → Board × Runner
  | .enqueueing input => match enqueueRefusal input with
    | some error => (g,.refused error)
    | none => match enqueueIntegration env input with
      | none => (g,.refused (notFound "integration not found for sync enqueue"))
      | some integration => (g,.inserting (newItem env integration input))
  | .inserting item => (g.insert item,.locking ⟨1,none,0⟩)
  | .finding queueId integrationId => match (g.items.row queueId).filter (gaveUp integrationId) with
    | none => (g,.refused (notFound "failed/permanently_failed sync queue item not found"))
    | some row => (g,.resetting [(queueId,row)] ⟨1,integrationId,0⟩)
  | .findingAll integrationId =>
    let rows := (oldestFirst (g.items.select fun _ => gaveUp integrationId)).take 20
    (g,.resetting rows ⟨max 1 rows.length,integrationId,0⟩)
  | .resetting [] round => (g,.locking round)
  | .resetting ((id,row) :: rest) round => ((g.save id row.reset).note (.putBack id),.resetting rest round)
  | .locking round => if g.lock.isNone then ({g with lock:=some who},.picking round) else (g,.busy)
  | .picking round =>
    if round.processed < max 1 round.limit then
      match oldestFirst (g.items.select fun _ => eligible g.now round.integrationId) with
      | [] => (g,.unlocking round)
      | (id,item) :: _ => (g,.working round id item .starting)
    else (g,.unlocking round)
  | .working round id item stage => workOn env g round id item stage
  | .unlocking round => (g.unlock who,.done round.processed)
  | runner => (g,runner)

-- An error from the request to the last bookkeeping of a success is caught, every other one ends
-- the run and gives up the lock.
def Stage.caught : Stage → Bool
  | .calling | .completing | .crediting | .recording => true
  | _ => false
def Runner.threw (who : Nat) (message : String) (g : Board) : Runner → Board × Runner
  | .working round id item stage =>
    if stage.caught then (g,.working round id (item.retried g.now message) .failing) else (g.unlock who,.failed)
  | _ => (g.unlock who,.failed)

-- The next statement succeeds; it fails; it takes effect but its caller sees an error; or the
-- process dies, and with it the session that holds the lock.
inductive Fate where
  | goes
  | fails (message : String)
  | lost (message : String)
  | dies
deriving DecidableEq, Repr
def Fate.writes : Fate → Bool
  | .goes | .lost _ => true
  | .fails _ | .dies => false
def Fate.throws : Fate → Bool
  | .fails _ | .lost _ => true
  | .goes | .dies => false
def nextStatement (who : Nat) (fate : Fate) (g : Board) (runner : Runner) : Board × Runner :=
  if runner.answered then (g,runner)
  else match fate with
    | .goes => runner.go env who g
    | .fails message => runner.threw who message g
    | .lost message => runner.threw who message (runner.go env who g).1
    | .dies => (g.unlock who,.dead)
-- Any number of requests at a time, those of the scheduler among them. Between statements only the
-- clock moves.
def syncBoard : System Board Runner Request Fate Nat := ⟨Request.runner,nextStatement env,fun ms g => {g with now:=g.now+ms}⟩

end Statements
abbrev SyncTurn := Turn Request Fate Nat

section Rows
variable {g : Board}

theorem save_row (id : Nat) (item : SyncItem) (other : Nat) :
    (g.save id item).items.row other = if id = other then (g.items.row other).map fun _ => item else g.items.row other :=
  apply_row (.update id fun _ => item) g.items other
theorem insert_row (item : SyncItem) (other : Nat) :
    (g.insert item).items.row other = if g.nextItemId = other then some {item with createdAt:=g.now} else g.items.row other :=
  row_put g.items g.nextItemId other _
theorem saved_row {id other : Nat} {row item stored : SyncItem} (present : g.items.row id = some row)
    (there : (g.save id item).items.row other = some stored) : id = other ∧ stored = item ∨ id ≠ other ∧ g.items.row other = some stored := by
  rw [save_row] at there
  split at there
  · rename_i same
    subst same
    rw [present] at there
    cases there
    exact .inl ⟨rfl,rfl⟩
  · rename_i apart
    exact .inr ⟨apart,there⟩
theorem save_self {id : Nat} {row item : SyncItem} (present : g.items.row id = some row) : (g.save id item).items.row id = some item := by
  rw [save_row,if_pos rfl,present]
  rfl
theorem inserted_row {item stored : SyncItem} {other : Nat} (there : (g.insert item).items.row other = some stored) :
    other = g.nextItemId ∧ stored = {item with createdAt:=g.now} ∨ g.items.row other = some stored := by
  rw [insert_row] at there
  split at there
  · rename_i same
    cases there
    exact .inl ⟨same.symm,rfl⟩
  · exact .inr there
theorem unlock_items (g : Board) (who : Nat) : (g.unlock who).items = g.items ∧ (g.unlock who).trail = g.trail ∧
    (g.unlock who).nextItemId = g.nextItemId := by
  unfold Board.unlock
  split
  · exact ⟨rfl,rfl,rfl⟩
  · exact ⟨rfl,rfl,rfl⟩
theorem oldestFirst_mem {rows : Table SyncItem} (member : entry ∈ oldestFirst rows) : entry ∈ rows :=
  (List.mergeSort_perm rows _).mem_iff.mp member

end Rows
instance decideRows {V : Type} (table : Table V) (P : Nat → V → Prop) [∀ key row,Decidable (P key row)] :
    Decidable (∀ key row,table.row key = some row → P key row) :=
  decidable_of_iff (∀ entry ∈ table,∀ row ∈ table.row entry.1,P entry.1 row)
    ⟨fun all key row here => by
      have listed : key ∈ table.map (·.1) := by
        by_contra absent
        cases here.symm.trans (row_none.mpr absent)
      obtain ⟨entry,member,rfl⟩ := List.mem_map.mp listed
      exact all entry member row here,fun all entry _ row here => all entry.1 row here⟩

-- A carrier's integration and the statuses of one of its orders.
def carrier : Integration := ⟨4,"carrier",false,[("sold","DELIVERED"),("cancelled","REFUSED")],some "/orders/status"⟩
def carrierEnv : Env :=
  ⟨fun text => String.ofList (text.toList.map Char.toLower),fun text => String.ofList (text.toList.map Char.toUpper),[carrier]⟩
def changes (action : SyncAction) (newStatus : String) : EnqueueInput :=
  ⟨some 11,some "R-11",some "external_carrier",none,action,none,none,some newStatus⟩
def each (who count : Nat) : List SyncTurn := List.replicate count (.step who .goes)

end Elchi.Syncing
