import Elchi.Interleaving
import Elchi.TransferBatches
namespace Elchi.Partners
open Interleaving
open Elchi.Batches (conflict)

-- A provisioning request. `partnerId` is the id of the authenticated partner, which the gateway puts
-- into the message.
structure MarketRequest where
  partnerId : Option Nat
  externalSellerId : Option String
  name : Option String
  phone : Option String
deriving DecidableEq, Repr
abbrev Pair := Nat × String
def MarketRequest.seller (dto : MarketRequest) : String := jsTrim (dto.externalSellerId.getD "")
def provisionRefusal (dto : MarketRequest) : Option RpcError :=
  if dto.partnerId.isNone then some (badRequest "partner_id majburiy")
  else if dto.seller.isEmpty then some (badRequest "external_seller_id majburiy")
  else if (jsTrim (dto.name.getD "")).isEmpty then some (badRequest "name majburiy")
  else if (jsTrim (dto.phone.getD "")).isEmpty then some (badRequest "phone majburiy")
  else none

-- Apart from A-Z only the Kelvin sign and the dotted capital I have lower-case forms in [a-z].
def lowered (c : Char) : Char := if c = '\u212A' then 'k' else if c = '\u0130' then 'i' else c.toLower
def usernameChar (c : Char) : Bool := ('a' ≤ c && c ≤ 'z') || ('0' ≤ c && c ≤ '9') || c == '_'
def buildMarketUsername (pair : Pair) : String :=
  let raw := (("mp" ++ toString pair.1 ++ "_" ++ pair.2).toList.map lowered).filter usernameChar
  String.ofList ((if raw.isEmpty then ("mp" ++ toString pair.1).toList else raw).take 60)

-- What identity is asked to create.
structure MarketDto where
  name : String
  phoneNumber : String
  username : String
deriving DecidableEq, Repr
def MarketRequest.market (dto : MarketRequest) (pair : Pair) : MarketDto :=
  ⟨jsTrim (dto.name.getD ""),jsTrim (dto.phone.getD ""),buildMarketUsername pair⟩

-- `madeFor` is the pair a market was created for, which no column holds.
structure User where
  id : Nat
  name : String
  phoneNumber : String
  username : Option String
  isDeleted : Bool
  madeFor : Option Pair
deriving DecidableEq, Repr
structure PartnerMarketRef where
  pair : Pair
  elchiMarketId : Nat
  isDeleted : Bool
deriving DecidableEq, Repr

-- A conflict the service reports, a unique column of the table, or any other error.
inductive Refusal where
  | conflict (error : RpcError)
  | violated (phone username : Bool)
  | thrown
deriving DecidableEq, Repr
def phoneTaken : RpcError := conflict "Bu telefon raqam allaqachon mavjud"
def usernameTaken : RpcError := conflict "Bu username allaqachon mavjud"
def Refusal.forUsername : Refusal → Bool
  | .conflict error => error == usernameTaken
  | .violated _ username => username
  | .thrown => false

-- A message 'identity.market.create' and how far its handler is. `reply` is the first answer that
-- went to the call `replyTo`.
inductive JobStage where
  | queued | phone | username | inserting
  | cashbox (market : Nat)
  | ended
deriving DecidableEq, Repr
inductive Reply where
  | market (id : Nat)
  | refused (refusal : Refusal)
deriving DecidableEq, Repr
structure Job where
  replyTo : Nat
  pair : Pair
  dto : MarketDto
  redelivered : Bool
  stage : JobStage
  reply : Option Reply
deriving DecidableEq, Repr
structure Registry where
  refs : List PartnerMarketRef
  users : List User
  nextUserId : Nat
  jobs : List Job

inductive CallStage where
  | looking (pair : Pair)
  | sending (pair : Pair)
  | awaiting (pair : Pair) (job : Nat)
  | saving (pair : Pair) (market : Nat)
  | rereading (pair : Pair)
  | done (pair : Pair) (market : Nat) (idempotent : Bool)
  | refused (error : RpcError)
  | failed
  | dead
deriving DecidableEq, Repr
structure Call where
  dto : MarketRequest
  stage : CallStage
deriving DecidableEq, Repr

-- The next statement succeeds; it fails; it takes effect but its caller sees an error; or the
-- process dies.
inductive Fate where
  | goes | fails | lost | dies
deriving DecidableEq, Repr
def Fate.writes : Fate → Bool
  | .goes | .lost => true
  | .fails | .dies => false

section Identity

def phoneUsed (users : List User) (dto : MarketDto) : Bool := users.any fun user => user.phoneNumber == dto.phoneNumber
def usernameUsed (users : List User) (dto : MarketDto) : Bool := users.any fun user => user.username == some dto.username
def liveUsers (users : List User) : List User := users.filter fun user => !user.isDeleted
def fits (dto : MarketDto) : Bool := dto.name.length ≤ 100 && dto.phoneNumber.length ≤ 20
-- The columns of the table: their lengths, and the two unique ones.
def insertRefusal (users : List User) (dto : MarketDto) : Option Refusal :=
  if !fits dto then some .thrown
  else if phoneUsed users dto || usernameUsed users dto then some (.violated (phoneUsed users dto) (usernameUsed users dto))
  else none
def Job.row (job : Job) (id : Nat) : User := ⟨id,job.dto.name,job.dto.phoneNumber,some job.dto.username,false,some job.pair⟩

-- An error of the service's own puts the message away, any other one lets it be delivered once
-- more; so does a consumer that dies.
def Job.answer (job : Job) (reply : Reply) : Job := {job with reply:=job.reply.or (some reply)}
def Job.refuse (job : Job) (error : RpcError) : Job := {job.answer (.refused (.conflict error)) with stage:=.ended}
def Job.threw (job : Job) (refusal : Refusal) : Job :=
  {job.answer (.refused refusal) with stage:=if job.redelivered then .ended else .queued,redelivered:=true}
def Job.died (job : Job) : Job := {job with stage:=.queued,redelivered:=true}

-- createMarket, a statement at a time; the rows it adds and where it stands next.
def Job.go (users : List User) (nextUserId : Nat) (job : Job) : List User × Job :=
  match job.stage with
  | .queued => ([],{job with stage:=.phone})
  | .phone => if phoneUsed (liveUsers users) job.dto then ([],job.refuse phoneTaken) else ([],{job with stage:=.username})
  | .username => if usernameUsed (liveUsers users) job.dto then ([],job.refuse usernameTaken) else ([],{job with stage:=.inserting})
  | .inserting => match insertRefusal users job.dto with
    | some refusal => ([],job.threw refusal)
    | none => ([job.row nextUserId],{job with stage:=.cashbox nextUserId})
  | .cashbox market => ([],{job.answer (.market market) with stage:=.ended})
  | .ended => ([],job)
def Job.next (fate : Fate) (users : List User) (nextUserId : Nat) (job : Job) : List User × Job :=
  match job.stage,fate with
  | .queued,_ | .ended,_ | _,.goes => job.go users nextUserId
  | _,.fails => ([],job.threw .thrown)
  | _,.lost => ((job.go users nextUserId).1,job.threw .thrown)
  | _,.dies => ([],job.died)
def Registry.work (g : Registry) (index : Nat) (fate : Fate) : Registry :=
  match g.jobs[index]? with
  | none => g
  | some job =>
    let (rows,job) := job.next fate g.users g.nextUserId
    {g with users:=g.users ++ rows,nextUserId:=g.nextUserId+rows.length,jobs:=g.jobs.set index job}

end Identity

section Provisioning

def Registry.binding (g : Registry) (pair : Pair) : Option PartnerMarketRef := g.refs.find? fun ref => ref.pair == pair
def Registry.existing (g : Registry) (pair : Pair) : Option PartnerMarketRef :=
  g.refs.find? fun ref => ref.pair == pair && !ref.isDeleted
def notCreated : RpcError := ⟨502,"Market yaratib bo‘lmadi (identity javob bermadi)"⟩
def notBound : RpcError := ⟨500,"Market bog‘lanishini saqlab bo‘lmadi"⟩

def MarketRequest.call (dto : MarketRequest) : Call :=
  match provisionRefusal dto,dto.partnerId with
  | some error,_ => ⟨dto,.refused error⟩
  | none,some partnerId => ⟨dto,.looking (partnerId,dto.seller)⟩
  | none,none => ⟨dto,.failed⟩
-- provisionPartnerMarket, a statement that succeeds at a time.
def Call.go (who : Nat) (g : Registry) (dto : MarketRequest) : CallStage → Registry × CallStage
  | .looking pair => match g.existing pair with
    | some ref => (g,.done pair ref.elchiMarketId true)
    | none => (g,.sending pair)
  | .sending pair => ({g with jobs:=g.jobs ++ [⟨who,pair,dto.market pair,false,.queued,none⟩]},.awaiting pair g.jobs.length)
  | .awaiting pair job => match (g.jobs[job]?).bind Job.reply with
    | none => (g,.awaiting pair job)
    | some (.market id) => (g,.saving pair id)
    | some (.refused _) => (g,.refused notCreated)
  | .saving pair market =>
    if (g.binding pair).isSome then (g,.rereading pair)
    else ({g with refs:=g.refs ++ [⟨pair,market,false⟩]},.done pair market false)
  | .rereading pair => match g.binding pair with
    | some ref => (g,.done pair ref.elchiMarketId true)
    | none => (g,.refused notBound)
  | stage => (g,stage)
-- Every error of the request to identity, its timeout among them, is no answer; one of the save is
-- looked into.
def threw : CallStage → CallStage
  | .sending _ | .awaiting _ _ => .refused notCreated
  | .saving pair _ => .rereading pair
  | _ => .failed
def CallStage.answered : CallStage → Bool
  | .done _ _ _ | .refused _ | .failed | .dead => true
  | _ => false
def provisionPartnerMarket (who : Nat) (fate : Fate) (g : Registry) (call : Call) : Registry × Call :=
  if call.stage.answered then (g,call)
  else match fate with
    | .goes => ((Call.go who g call.dto call.stage).1,{call with stage:=(Call.go who g call.dto call.stage).2})
    | .fails => (g,{call with stage:=threw call.stage})
    | .lost => ((Call.go who g call.dto call.stage).1,{call with stage:=threw call.stage})
    | .dies => (g,{call with stage:=.dead})

end Provisioning

-- Any number of calls at a time; between their statements the handlers of identity move.
structure Handling where
  job : Nat
  fate : Fate
deriving DecidableEq, Repr
def partnerMarkets : System Registry Call MarketRequest Fate Handling :=
  ⟨MarketRequest.call,provisionPartnerMarket,fun event g => g.work event.job event.fate⟩
abbrev PartnerTurn := Turn MarketRequest Fate Handling
abbrev PartnerRun := Machine Registry Call

end Elchi.Partners
