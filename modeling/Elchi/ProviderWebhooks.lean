import Elchi.WebhookSignature
import Elchi.Interleaving
import Elchi.OrderLives
namespace Elchi.Webhooks
open RowLock hiding Machine Turn
open Interleaving Batches
open Orders (ProviderAction)

-- A number is kept as JavaScript shows it.
inductive Json where
  | null
  | bool (value : Bool)
  | num (shown : String)
  | str (text : String)
  | arr (items : List Json)
  | obj (fields : List (String × Json))
abbrev Fields := List (String × Json)

structure PayloadPaths where
  externalRef : Option String
  trackingNumber : Option String
  status : Option String
deriving DecidableEq, Repr
structure StatusMapping where
  status : Option String
  action : Option String
deriving DecidableEq, Repr
-- An external integration as the webhooks use it, its secrets decrypted.
structure Integration where
  id : Nat
  slug : String
  isDeleted : Bool
  webhookSecret : Option String
  webhookSecretPrevious : Option String
  webhookSignatureHeader : Option String
  webhookSignaturePrefix : Option String
  webhookAlgorithm : Option String
  webhookIdHeader : Option String
  webhookPayloadPaths : Option PayloadPaths
  inboundStatusMapping : List (String × StatusMapping)
deriving DecidableEq, Repr

inductive LogStatus where
  | received | verified | rejected | processed | failed
deriving DecidableEq, Repr
structure WebhookLog where
  integrationId : Option Nat
  providerSlug : Option String
  deliveryId : Option String
  eventType : Option String
  signatureValid : Bool
  status : LogStatus
  error : Option String
  processedAt : Option Nat
deriving DecidableEq, Repr
-- The shipment of an order, stored under the order's id.
structure Shipment where
  integrationId : Nat
  providerSlug : Option String
  externalRef : Option String
  trackingNumber : Option String
  providerStatus : Option String
  internalStatus : Option String
  statusChangedAt : Option Nat
deriving DecidableEq, Repr
inductive ReceivableStatus where
  | pending | settled | cancelled
deriving DecidableEq, Repr
structure Receivable where
  orderId : Nat
  integrationId : Nat
  providerSlug : Option String
  externalRef : Option String
  amount : Int
  status : ReceivableStatus
  remittanceId : Option Nat
  settledAt : Option Nat
  isDeleted : Bool
  createdAt : Nat
deriving DecidableEq, Repr

structure Request where
  slug : String
  rawBody : Bytes
  headers : List (String × String)
deriving DecidableEq, Repr

-- createHmac, JSON.parse and the case conversions of the platform, the stored integrations and
-- INTEGRATION_REQUIRE_DELIVERY_ID.
structure Env where
  hmac : String → String → Bytes → Option Bytes
  parse : Bytes → Option Json
  lower : String → String
  upper : String → String
  integrations : List Integration
  requireDeliveryId : Bool

def truthy (text : Option String) : Option String := text.filter fun value => !value.isEmpty

section Payload

def tryParseJson (env : Env) (body : Bytes) : Option Fields :=
  (env.parse body).map fun
    | .obj fields => fields
    | value => [("value",value)]
def Json.get (key : String) : Json → Option Json
  | .obj fields => (fields.reverse.find? fun field => field.1 == key).map (·.2)
  | .arr items =>
    if key = "length" then some (.num (toString items.length))
    else (items.zipIdx.find? fun item => toString item.2 == key).map (·.1)
  | _ => none
def extractPath (source : Json) (path : String) : Option Json :=
  if (jsTrim path).isEmpty then some source
  else ((path.toList.splitOn '.').map String.ofList).foldl (fun value key => value.bind (Json.get key)) (some source)
def stringifyPath : Option Json → Option String
  | some (.str text) => truthy (some (jsTrim text))
  | some (.num shown) => some shown
  | some (.bool value) => some (if value then "true" else "false")
  | _ => none
def readPath (fields : Fields) (path : Option String) : Option String :=
  (truthy path).bind fun path => stringifyPath (extractPath (.obj fields) path)

def header (env : Env) (headers : List (String × String)) (name : String) : Option String :=
  (headers.reverse.find? fun entry => env.lower entry.1 == name).map (·.2)
def extractEventType (env : Env) (parsed : Option Fields) (headers : List (String × String)) : Option String :=
  match truthy (((header env headers "x-event").or (header env headers "x-event-type")).or (header env headers "x-webhook-event")) with
  | some event => some event
  | none => stringifyPath (parsed.bind fun fields =>
      (["event","event_type","type"].findSome? fun key => (Json.get key (.obj fields)).bind fun
        | .null => none
        | value => some value))

end Payload

-- A correctly signed delivery.
structure Delivery where
  integration : Integration
  deliveryId : Option String
  eventType : Option String
  parsed : Option Fields
-- What receiveWebhook finds out before it asks the log: createHmac has thrown, a rejection with the
-- row it logs and its reply, or a delivery.
inductive Authentication where
  | thrown
  | rejected (log : WebhookLog) (code : Nat) (reason : String)
  | verified (delivery : Delivery)

def Authentication.delivery : Authentication → Option Delivery
  | .verified delivery => some delivery
  | _ => none

def rejection (integration : Integration) (deliveryId eventType : Option String) (error : String) : WebhookLog :=
  ⟨some integration.id,some integration.slug,deliveryId,eventType,false,.rejected,some error,none⟩
def authenticate (env : Env) (request : Request) : Authentication :=
  let slug := jsTrim request.slug
  match if slug.isEmpty then none else env.integrations.find? fun integration => integration.slug == slug && !integration.isDeleted with
  | none => .rejected ⟨none,truthy (some slug),none,none,false,.rejected,some "integration not found",none⟩ 401 "unknown_provider"
  | some integration => match truthy integration.webhookSecret with
    | none => .rejected (rejection integration none none "webhook_secret not configured") 401 "not_configured"
    | some secret =>
      let signature := (header env request.headers (env.lower (integration.webhookSignatureHeader.getD "x-signature"))).getD ""
      let deliveryId := (truthy integration.webhookIdHeader).bind fun name => header env request.headers (env.lower name)
      let parsed := tryParseJson env request.rawBody
      let eventType := extractEventType env parsed request.headers
      match verifyHmacSignature (env.hmac (integration.webhookAlgorithm.getD "sha256")) request.rawBody signature secret
          integration.webhookSecretPrevious integration.webhookSignaturePrefix with
      | none => .thrown
      | some (.rejected reason) =>
        .rejected (rejection integration deliveryId eventType ("signature " ++ reason)) 401 "invalid_signature"
      | some _ => .verified ⟨integration,deliveryId,eventType,parsed⟩

-- What the replay check looks for; without a delivery id there is none.
def Delivery.key (delivery : Delivery) : Option (Nat × String) :=
  (truthy delivery.deliveryId).map fun id => (delivery.integration.id,id)
def Delivery.log (delivery : Delivery) : WebhookLog :=
  ⟨some delivery.integration.id,some delivery.integration.slug,delivery.deliveryId,delivery.eventType,true,.verified,none,none⟩
def Delivery.missingId (delivery : Delivery) (name : String) : WebhookLog :=
  {delivery.log with deliveryId:=none,status:=.rejected,error:=some ("missing delivery id header '" ++ name ++ "'")}

-- The unique index of the log, which leaves out rows without a delivery id.
def WebhookLog.key (log : WebhookLog) : Option (Nat × String) :=
  match log.integrationId,log.deliveryId with
  | some integration,some delivery => some (integration,delivery)
  | _,_ => none

inductive ApplyOutcome where
  | noPaths | noStatus | noShipment | unmapped | unchanged | updated
deriving DecidableEq, Repr
def ApplyOutcome.diagnostic : ApplyOutcome → Option String
  | .noPaths => some "apply: no_paths"
  | .noStatus => some "apply: no_status"
  | .noShipment => some "apply: no_shipment"
  | .unmapped => some "apply: unmapped"
  | _ => none
structure Applied where
  outcome : ApplyOutcome
  internalStatus : Option String
  action : Option String
  orderId : Option Nat
deriving DecidableEq, Repr
structure ShipmentInput where
  integrationId : Nat
  providerStatus : String
  internalStatus : Option String
  trackingNumber : Option String
deriving DecidableEq, Repr
-- The order a terminal action drives, and the shipment's columns the receivable takes over.
structure Drive where
  orderId : Nat
  action : ProviderAction
  providerSlug : Option String
  externalRef : Option String
deriving DecidableEq, Repr

def mapProviderStatus (env : Env) (integration : Integration) (providerStatus : String) : Option StatusMapping :=
  match integration.inboundStatusMapping.find? fun entry => entry.1 == providerStatus with
  | some entry => some entry.2
  | none => (integration.inboundStatusMapping.find? fun entry => env.upper entry.1 == env.upper providerStatus).map (·.2)
def providerAction : Option String → Option ProviderAction
  | some "sell" => some .sell
  | some "cancel" => some .cancel
  | some "return" => some .handBack
  | _ => none

-- applyWebhookToShipment up to its first write.
inductive Plan where
  | stop (applied : Applied)
  | upsert (orderId : Nat) (input : ShipmentInput) (applied : Applied) (drive : Option Drive)
def findShipmentByRef (shipments : Table Shipment) (externalRef trackingNumber : Option String) (integrationId : Nat) : Option (Nat × Shipment) :=
  ((truthy externalRef).bind fun ref =>
      shipments.find? fun entry => entry.2.externalRef == some ref && entry.2.integrationId == integrationId).or
    ((truthy trackingNumber).bind fun number =>
      shipments.find? fun entry => entry.2.trackingNumber == some number && entry.2.integrationId == integrationId)
def planUpdate (env : Env) (integration : Integration) (parsed : Option Fields) (shipments : Table Shipment) : Plan :=
  match integration.webhookPayloadPaths,parsed with
  | some paths,some fields => match readPath fields paths.status with
    | none => .stop ⟨.noStatus,none,none,none⟩
    | some providerStatus =>
      let trackingNumber := readPath fields paths.trackingNumber
      match findShipmentByRef shipments (readPath fields paths.externalRef) trackingNumber integration.id with
      | none => .stop ⟨.noShipment,none,none,none⟩
      | some (orderId,shipment) =>
        let mapped := mapProviderStatus env integration providerStatus
        match truthy (mapped.bind (·.status)) with
        | none => .upsert orderId ⟨integration.id,providerStatus,none,trackingNumber⟩ ⟨.unmapped,none,none,some orderId⟩ none
        | some status =>
          if shipment.internalStatus = some status then
            .upsert orderId ⟨integration.id,providerStatus,none,none⟩ ⟨.unchanged,some status,none,some orderId⟩ none
          else
            let action := mapped.bind (·.action)
            .upsert orderId ⟨integration.id,providerStatus,some status,trackingNumber⟩ ⟨.updated,some status,action,some orderId⟩
              ((providerAction action).map fun action => ⟨orderId,action,some integration.slug,shipment.externalRef⟩)
  | _,_ => .stop ⟨.noPaths,none,none,none⟩

def upsertedShipment (now : Nat) (input : ShipmentInput) (shipment : Option Shipment) : Shipment :=
  let shipment := shipment.getD ⟨input.integrationId,none,none,none,none,none,none⟩
  {shipment with
    integrationId:=input.integrationId,trackingNumber:=input.trackingNumber.or shipment.trackingNumber,
    providerStatus:=some input.providerStatus,statusChangedAt:=some now,
    internalStatus:=input.internalStatus.or shipment.internalStatus}

-- order.provider.mark: what it leaves of the orders, and the total_price of its reply, which it
-- gives only when it has just moved the order.
def providerMark (now orderId : Nat) (action : ProviderAction) (depot : Depot) : Depot × Option Int :=
  match findOrder orderId depot,Batches.markByProvider now orderId action depot with
  | .ok row,.ok next => (next,if action.alreadyApplied row.order.status then none else some row.order.totalPrice)
  | _,_ => (depot,none)

-- What recordProviderReceivable and cancelProviderReceivable save, from the row they read.
inductive ReceivableWrite where
  | insert (row : Receivable)
  | save (id : Nat) (row : Receivable)
def liveReceivable (receivables : Table Receivable) (integrationId orderId : Nat) : Option (Nat × Receivable) :=
  receivables.find? fun entry => entry.2.integrationId == integrationId && entry.2.orderId == orderId && !entry.2.isDeleted
def recordProviderReceivable (now integrationId : Nat) (drive : Drive) (amount : Int) (receivables : Table Receivable) : Option ReceivableWrite :=
  if 0 < amount then
    match liveReceivable receivables integrationId drive.orderId with
    | some (id,row) =>
      if row.status = .settled then none
      else some (.save id {row with
        status:=.pending,amount:=amount,providerSlug:=drive.providerSlug.or row.providerSlug,
        externalRef:=drive.externalRef.or row.externalRef,remittanceId:=none,settledAt:=none})
    | none => some (.insert ⟨drive.orderId,integrationId,drive.providerSlug,drive.externalRef,amount,.pending,none,none,false,now⟩)
  else none
def cancelProviderReceivable (integrationId orderId : Nat) (receivables : Table Receivable) : Option ReceivableWrite :=
  (receivables.find? fun entry => entry.2.integrationId == integrationId && entry.2.orderId == orderId &&
    entry.2.status == .pending && !entry.2.isDeleted).map fun entry => .save entry.1 {entry.2 with status:=.cancelled}
def Drive.receivable (now integrationId : Nat) (drive : Drive) (amount : Int) (receivables : Table Receivable) : Option ReceivableWrite :=
  if drive.action = .sell then recordProviderReceivable now integrationId drive amount receivables
  else cancelProviderReceivable integrationId drive.orderId receivables

-- The integration service's tables and the orders of the order service.
structure Office where
  now : Nat
  logs : Table WebhookLog
  nextLogId : Nat
  shipments : Table Shipment
  receivables : Table Receivable
  nextReceivableId : Nat
  depot : Depot

def Office.taken (g : Office) (key : Option (Nat × String)) : Bool := key.isSome && g.logs.any fun entry => entry.2.key == key
-- saveWebhookLog: a row the unique index refuses is not written, and nobody is told.
def Office.insertLog (g : Office) (log : WebhookLog) : Office × Option Nat :=
  if g.taken log.key then (g,none)
  else ({g with logs:=g.logs ++ [(g.nextLogId,log)],nextLogId:=g.nextLogId+1},some g.nextLogId)
def Office.write (g : Office) : ReceivableWrite → Office
  | .save id row => {g with receivables:=(Write.update id fun _ => row).apply g.receivables}
  | .insert row =>
    if (liveReceivable g.receivables row.integrationId row.orderId).isSome then g
    else {g with receivables:=g.receivables.put g.nextReceivableId row,nextReceivableId:=g.nextReceivableId+1}
def processedLog (now : Nat) (outcome : ApplyOutcome) (log : WebhookLog) : WebhookLog :=
  {log with status:=.processed,processedAt:=some now,error:=outcome.diagnostic}

-- Where a webhook request stands between two statements; one that has died may have applied its
-- delivery before.
inductive Hook where
  | arrived (request : Request)
  | rejecting (log : WebhookLog) (code : Nat) (reason : String)
  | checking (delivery : Delivery)
  | logging (delivery : Delivery)
  | applying (delivery : Delivery) (logId : Option Nat)
  | loading (delivery : Delivery) (logId : Option Nat) (orderId : Nat) (input : ShipmentInput) (applied : Applied) (drive : Option Drive)
  | saving (delivery : Delivery) (logId : Option Nat) (orderId : Nat) (shipment : Shipment) (applied : Applied) (drive : Option Drive)
  | marking (delivery : Delivery) (logId : Option Nat) (applied : Applied) (drive : Drive)
  | reading (delivery : Delivery) (logId : Option Nat) (applied : Applied) (drive : Drive) (amount : Int)
  | settling (delivery : Delivery) (logId : Option Nat) (applied : Applied) (write : ReceivableWrite)
  | finishing (delivery : Delivery) (logId : Option Nat) (applied : Applied)
  | accepted (delivery : Delivery) (logId : Option Nat) (applied : Applied)
  | duplicate (delivery : Delivery)
  | refused (code : Nat) (reason : String)
  | failed
  | dead (applied : Option Delivery)

-- The next statement succeeds; it fails; it takes effect but its caller sees an error; or the
-- process dies.
inductive Fate where
  | goes | fails | lost | dies
deriving DecidableEq, Repr

def afterSave (delivery : Delivery) (logId : Option Nat) (applied : Applied) : Option Drive → Hook
  | some drive => .marking delivery logId applied drive
  | none => .finishing delivery logId applied
def finishLog (g : Office) (logId : Option Nat) (applied : Applied) : Office :=
  match logId with
  | none => g
  | some id => {g with logs:=(Write.update id (processedLog g.now applied.outcome)).apply g.logs}

-- receiveWebhook, a statement that succeeds at a time.
def Hook.go (env : Env) (g : Office) : Hook → Office × Hook
  | .arrived request => match authenticate env request with
    | .thrown => (g,.failed)
    | .rejected log code reason => (g,.rejecting log code reason)
    | .verified delivery =>
      if delivery.key.isSome then (g,.checking delivery)
      else match truthy delivery.integration.webhookIdHeader with
        | some name =>
          if env.requireDeliveryId then (g,.rejecting (delivery.missingId name) 400 "missing_delivery_id") else (g,.logging delivery)
        | none => (g,.logging delivery)
  | .rejecting log code reason => ((g.insertLog log).1,.refused code reason)
  | .checking delivery => if g.taken delivery.key then (g,.duplicate delivery) else (g,.logging delivery)
  | .logging delivery => ((g.insertLog delivery.log).1,.applying delivery (g.insertLog delivery.log).2)
  | .applying delivery logId => match planUpdate env delivery.integration delivery.parsed g.shipments with
    | .stop applied => (g,.finishing delivery logId applied)
    | .upsert orderId input applied drive => (g,.loading delivery logId orderId input applied drive)
  | .loading delivery logId orderId input applied drive =>
    (g,.saving delivery logId orderId (upsertedShipment g.now input (g.shipments.row orderId)) applied drive)
  | .saving delivery logId orderId shipment applied drive =>
    ({g with shipments:=g.shipments.put orderId shipment},afterSave delivery logId applied drive)
  | .marking delivery logId applied drive =>
    let marked := providerMark g.now drive.orderId drive.action g.depot
    ({g with depot:=marked.1},.reading delivery logId applied drive (marked.2.getD 0))
  | .reading delivery logId applied drive amount =>
    match drive.receivable g.now delivery.integration.id amount g.receivables with
    | none => (g,.finishing delivery logId applied)
    | some write => (g,.settling delivery logId applied write)
  | .settling delivery logId applied write => (g.write write,.finishing delivery logId applied)
  | .finishing delivery logId applied => (finishLog g logId applied,.accepted delivery logId applied)
  | hook => (g,hook)

-- Where it stands when a statement fails: most errors leave the handler, those of the log, of the
-- order service and of the receivable are swallowed.
def Hook.afterError : Hook → Hook
  | .rejecting _ code reason => .refused code reason
  | .logging delivery => .applying delivery none
  | .marking delivery logId applied drive => .reading delivery logId applied drive 0
  | .reading delivery logId applied _ _ => .finishing delivery logId applied
  | .settling delivery logId applied _ => .finishing delivery logId applied
  | .finishing delivery logId applied => .accepted delivery logId applied
  | _ => .failed

def Hook.answered : Hook → Bool
  | .accepted _ _ _ | .duplicate _ | .refused _ _ | .failed | .dead _ => true
  | _ => false
def Hook.died : Hook → Hook
  | .finishing delivery _ _ => .dead (some delivery)
  | _ => .dead none
def nextStatement (env : Env) (fate : Fate) (g : Office) (hook : Hook) : Office × Hook :=
  if hook.answered then (g,hook)
  else match fate with
    | .goes => hook.go env g
    | .fails => (g,hook.afterError)
    | .lost => ((hook.go env g).1,hook.afterError)
    | .dies => (g,hook.died)

-- Any number of requests at a time. Between statements only the clock moves.
def webhookOffice (env : Env) : System Office Hook Request Fate Nat :=
  ⟨.arrived,fun _ => nextStatement env,fun ms g => {g with now:=g.now+ms}⟩
-- One request with nobody else in the way.
def receiveWebhook (env : Env) (request : Request) (fates : List Fate) (g : Office) : Office × Hook :=
  fates.foldl (fun reached fate => nextStatement env fate reached.1 reached.2) (g,.arrived request)

-- A carrier's integration, the shipment of order 11 with it, and its callbacks: a body of one byte
-- stands for the status it reports.
def cargo : Integration :=
  ⟨4,"cargo",false,some "key",none,none,none,none,some "X-Delivery-Id",some ⟨some "ref",none,some "status"⟩,
    [("DELIVERED",⟨some "delivered",some "sell"⟩),("REFUSED",⟨some "refused",some "cancel"⟩)]⟩
def reports : Bytes → Option Json
  | [1] => some (.obj [("ref",.str "R-11"),("status",.str "delivered")])
  | [2] => some (.obj [("ref",.str "R-11"),("status",.str "refused")])
  | _ => none
def cargoEnv : Env where
  hmac := fun _ secret body => some (body ++ secret.toList.map fun c => UInt8.ofNat c.toNat)
  parse := reports
  lower := fun text => String.ofList (text.toList.map Char.toLower)
  upper := fun text => String.ofList (text.toList.map Char.toUpper)
  integrations := [cargo]
  requireDeliveryId := false
def cargoOffice (depot : Depot) : Office := ⟨0,[],1,[(11,⟨4,some "cargo",some "R-11",none,none,none,none⟩)],[],1,depot⟩
def callback (body : Bytes) (deliveryId : String) : Request :=
  ⟨"cargo",body,[("X-Signature",((computeHmacSignature (cargoEnv.hmac "sha256") body "key").getD "")),("X-Delivery-Id",deliveryId)]⟩
def forged (deliveryId : String) : Request := ⟨"cargo",[1],[("X-Signature","00"),("X-Delivery-Id",deliveryId)]⟩

end Elchi.Webhooks
