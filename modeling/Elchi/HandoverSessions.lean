import Elchi.Interleaving
import Elchi.OrderLives
namespace Elchi.Handovers
open RowLock hiding Machine Turn
open Interleaving Orders Batches

-- A row of market_cancelled_handover_sessions. Times are in milliseconds; a token is stored as
-- its hash.
structure HandoverSession where
  marketId : Nat
  qrTokenHash : String
  qrExpiresAt : Nat
  scannedAt : Option Nat
  scannedByUserId : Option Nat
  authorizationTokenHash : Option String
  authorizationExpiresAt : Option Nat
  consumedAt : Option Nat
  isDeleted : Bool
deriving DecidableEq, Repr

structure CreateQrInput where
  marketId : Nat
  requester : Requester
-- `branch` is what the branch service answers for the requester.
structure ScanInput where
  qrToken : String
  requester : Requester
  branch : Except RpcError (Option String)
structure ManualOverride where
  orderId : Nat
  reason : String
-- `market` is what the market lookup answers: its cancelled_handover_qr_required, when it exists.
structure CompleteInput where
  marketId : Nat
  orderIds : List Nat
  authorizationToken : Option String
  manualOverrides : List ManualOverride
  requester : Requester
  branch : Except RpcError (Option String)
  market : Option (Option Bool)
inductive Request where
  | createQr (input : CreateQrInput)
  | scanQr (input : ScanInput)
  | complete (input : CompleteInput)

def hasPrefix (mark token : String) : Bool := mark.toList.isPrefixOf token.toList
-- generateHandoverToken, with the random part it draws.
def generateHandoverToken (mark random : String) : String := mark ++ "-" ++ random

def assertMarketHandoverHqRequester (requester : Requester) (branch : Except RpcError (Option String)) : Except RpcError Unit :=
  if requester.hasRole .superadmin || requester.hasRole .admin then .ok ()
  else if !requester.hasRole .registrator then .error (forbidden "QR scan va marketga topshirish faqat HQ xodimlari uchun")
  else branch.bind fun type =>
    if (type.getD "").toUpper = "HQ" then .ok ()
    else .error (forbidden "Faqat HQga tegishli registrator QR scan qila oladi")

-- A requester the check lets through.
structure HqStaff where
  requester : Requester
  branch : Except RpcError (Option String)
  admitted : assertMarketHandoverHqRequester requester branch = .ok ()
def HqStaff.of (requester : Requester) (branch : Except RpcError (Option String)) : Except RpcError HqStaff :=
  match admitted : assertMarketHandoverHqRequester requester branch with
  | .ok () => .ok ⟨requester,branch,admitted⟩
  | .error error => .error error

-- The QR a market has drawn for itself, a scan of it, and a handover that may look for its orders.
structure QrTicket where
  marketId : Nat
  requester : Requester
  own : requester.hasRole .market = true ∧ requester.id = marketId
  qrToken : String
  expiresAt : Nat
structure Scan where
  qrToken : String
  staff : HqStaff
  scannedAt : Nat
  authorizationToken : String
  expiresAt : Nat
-- `setting` is the market's cancelled_handover_qr_required.
structure Handover where
  marketId : Nat
  staff : HqStaff
  orderIds : List Nat
  setting : Option Bool
  authorizationToken : String
def Handover.qrRequired (handover : Handover) : Bool := handover.setting != some false

def createChecks (input : CreateQrInput) (now : Nat) (random : String) : Except RpcError QrTicket :=
  if own : input.requester.hasRole .market = true ∧ input.requester.id = input.marketId then
    .ok ⟨input.marketId,input.requester,own,generateHandoverToken "MCR" random,now+2*60*1000⟩
  else .error (forbidden "Market faqat o‘zi uchun QR yarata oladi")
def scanChecks (input : ScanInput) : Except RpcError (String × HqStaff) :=
  let qrToken := jsTrim input.qrToken
  if !hasPrefix "MCR-" qrToken then .error (badRequest "QR token yoki requester noto‘g‘ri")
  else (HqStaff.of input.requester input.branch).map fun staff => (qrToken,staff)

def manualReasons : List String := ["QR yirtilgan","QR o'qilmayapti","Label yo'qolgan","QR namlangan yoki xiralashgan"]
def manualReasonMaxLength : Nat := 80
def usedOverrides (overrides : List ManualOverride) : List ManualOverride :=
  (overrides.map fun item => {item with reason:=jsTrim item.reason}).filter fun item => !item.reason.isEmpty
def checkOverrides (orderIds : List Nat) (overrides : List ManualOverride) : Except RpcError Unit :=
  let keys := (overrides.map fun item => item.orderId).eraseDups
  let invalid := keys.filter fun id => !orderIds.contains id
  if keys.length ≠ overrides.length then .error (badRequest "manual_overrides ichida takror order bor")
  else if overrides.any fun item => manualReasonMaxLength < item.reason.length || !manualReasons.contains item.reason then
    .error (badRequest "manual_overrides.reason noto‘g‘ri yoki juda uzun")
  else if !invalid.isEmpty then
    .error (badRequest ("manual_overrides faqat tanlangan orderlar uchun bo'lishi kerak: " ++ ", ".intercalate (invalid.map toString)))
  else .ok ()
def completeChecks (input : CompleteInput) : Except RpcError Handover := do
  let orderIds := input.orderIds.eraseDups
  let authorizationToken := jsTrim (input.authorizationToken.getD "")
  if orderIds.isEmpty then .error (badRequest "order_ids is required")
  else
    checkOverrides orderIds (usedOverrides input.manualOverrides)
    let staff ← HqStaff.of input.requester input.branch
    match input.market with
    | none => .error (badRequest "Market topilmadi")
    | some setting =>
      let handover : Handover := ⟨input.marketId,staff,orderIds,setting,authorizationToken⟩
      if handover.qrRequired && authorizationToken.isEmpty then .error (badRequest "authorization_token majburiy")
      else if handover.qrRequired && !hasPrefix "MHA-" authorizationToken then .error (badRequest "authorization_token noto‘g‘ri")
      else .ok handover

-- The checks of the locked session.
def scanRefusal (session : HandoverSession) (now : Nat) : Option RpcError :=
  if session.qrExpiresAt ≤ now then some (badRequest "QR muddati tugagan")
  else if session.scannedAt.isSome || session.authorizationTokenHash.isSome then some (badRequest "QR allaqachon ishlatilgan")
  else none
def handoverRefusal (session : HandoverSession) (handover : Handover) (now : Nat) : Option RpcError :=
  match session.authorizationExpiresAt with
  | none => some (forbidden "Topshirish ruxsati topilmadi")
  | some expiresAt =>
    if session.marketId ≠ handover.marketId then some (forbidden "Ruxsat boshqa market uchun berilgan")
    else if session.scannedByUserId ≠ some handover.staff.requester.id then some (forbidden "Ruxsat boshqa xodimga tegishli")
    else if session.consumedAt.isSome then some (forbidden "Topshirish ruxsati allaqachon ishlatilgan")
    else if expiresAt ≤ now then some (forbidden "5 daqiqalik topshirish ruxsati tugagan")
    else none

-- A completed handover: the rows it has locked are the ones it closes.
structure Closure where
  who : Nat
  handover : Handover
  now : Nat
  session : Option Nat
  orders : Table OrderRow
inductive Deed where
  | issued (session : Nat) (ticket : QrTicket)
  | scanned (session : Nat) (scan : Scan)
  | closed (closure : Closure)

inductive LockedRow where
  | session (id : Nat)
  | order (id : Nat)
deriving DecidableEq, Repr

-- `presented` are the tokens requests have come with, and when; `deeds` is what was committed,
-- oldest first.
structure Desk where
  now : Nat
  sessions : Table HandoverSession
  nextSessionId : Nat
  depot : Depot
  locks : Locks LockedRow
  presented : List (String × Nat)
  deeds : List Deed
def Desk.open (now : Nat) (depot : Depot) : Desk := ⟨now,[],1,depot,[],[],[]⟩

-- Where a request stands between two statements.
inductive Clerk where
  | creating (input : CreateQrInput)
  | replacing (ticket : QrTicket)
  | deleting (ticket : QrTicket) (pending replaced : List Nat)
  | inserting (ticket : QrTicket)
  | scanning (input : ScanInput)
  | seeking (qrToken : String) (staff : HqStaff)
  | saving (session : Nat) (scan : Scan)
  | completing (input : CompleteInput)
  | admitting (handover : Handover) (now : Nat)
  | selecting (handover : Handover) (now : Nat) (session : Option Nat)
  | locking (handover : Handover) (now : Nat) (session : Option Nat) (pending : List Nat) (found : Table OrderRow)
  | issued (ticket : QrTicket)
  | authorized (scan : Scan)
  | closed (closure : Closure)
  | refused (error : RpcError)
  | dead

def Clerk.answered : Clerk → Bool
  | .issued _ | .authorized _ | .closed _ | .refused _ | .dead => true
  | _ => false

def Request.clerk : Request → Clerk
  | .createQr input => .creating input
  | .scanQr input => .scanning input
  | .complete input => .completing input

-- The next statement succeeds, with the random part of a token it may draw; it fails and the
-- transaction is rolled back; or the process dies.
inductive Fate where
  | goes (random : String)
  | fails (error : RpcError)
  | dies

def Desk.release (g : Desk) (who : Nat) : Desk := {g with locks:=g.locks.release who}
def Desk.refuse (g : Desk) (who : Nat) (error : RpcError) : Desk × Clerk := (g.release who,.refused error)
def Desk.lock (g : Desk) (who : Nat) (row : LockedRow) : Desk := {g with locks:=(row,who) :: g.locks}

def unscannedOf (marketId : Nat) (session : HandoverSession) : Bool :=
  session.marketId == marketId && session.scannedAt.isNone && !session.isDeleted
def markSession (replaced : List Nat) (id : Nat) (session : HandoverSession) : HandoverSession :=
  if replaced.contains id then {session with isDeleted:=true} else session
def markDeleted (replaced : List Nat) (sessions : Table HandoverSession) : Table HandoverSession :=
  sessions.map fun entry => (entry.1,markSession replaced entry.1 entry.2)

section Statements
variable (hash : String → String)

def newSession (ticket : QrTicket) : HandoverSession :=
  ⟨ticket.marketId,hash ticket.qrToken,ticket.expiresAt,none,none,none,none,none,false⟩
def Scan.save (scan : Scan) (session : HandoverSession) : HandoverSession :=
  {session with
    scannedAt:=some scan.scannedAt,scannedByUserId:=some scan.staff.requester.id,
    authorizationTokenHash:=some (hash scan.authorizationToken),authorizationExpiresAt:=some scan.expiresAt}

-- createMarketCancelledHandoverQr: an UPDATE of the market's unscanned sessions, which locks them
-- one by one and looks at each again once it has it, and an INSERT of the new one.
def replaceSessions (who : Nat) (g : Desk) (ticket : QrTicket) (replaced : List Nat) : List Nat → Desk × Clerk
  | [] => ({g.release who with sessions:=markDeleted replaced g.sessions},.inserting ticket)
  | id :: pending =>
    if g.locks.free who (.session id) then
      let replaced := if (g.sessions.row id).any (unscannedOf ticket.marketId) then replaced ++ [id] else replaced
      (g.lock who (.session id),.deleting ticket pending replaced)
    else (g,.deleting ticket (id :: pending) replaced)
def insertSession (who : Nat) (g : Desk) (ticket : QrTicket) : Desk × Clerk :=
  if g.sessions.any fun entry => entry.2.qrTokenHash == hash ticket.qrToken then g.refuse who databaseError
  else
    ({g with
      sessions:=g.sessions.put g.nextSessionId (newSession hash ticket),nextSessionId:=g.nextSessionId+1,
      deeds:=g.deeds ++ [.issued g.nextSessionId ticket]},.issued ticket)

-- scanMarketCancelledHandoverQr: SELECT ... FOR UPDATE by the QR's hash, then the save and commit.
def seekQr (who : Nat) (g : Desk) (qrToken : String) (staff : HqStaff) (random : String) : Desk × Clerk :=
  match g.sessions.select fun _ session => session.qrTokenHash == hash qrToken && !session.isDeleted with
  | [] => g.refuse who (badRequest "QR topilmadi yoki yangilangan")
  | (id,session) :: _ =>
    if g.locks.free who (.session id) then
      match scanRefusal session g.now with
      | some error => g.refuse who error
      | none => (g.lock who (.session id),
          .saving id ⟨qrToken,staff,g.now,generateHandoverToken "MHA" random,g.now+5*60*1000⟩)
    else (g,.seeking qrToken staff)
def saveScan (who : Nat) (g : Desk) (id : Nat) (scan : Scan) : Desk × Clerk :=
  if g.sessions.any fun entry => entry.1 != id && entry.2.authorizationTokenHash == some (hash scan.authorizationToken) then
    g.refuse who databaseError
  else
    ({g.release who with
      sessions:=(Write.update id (scan.save hash)).apply g.sessions,deeds:=g.deeds ++ [.scanned id scan]},.authorized scan)

-- completeMarketCancelledHandover: the session FOR UPDATE where the market requires it, the orders
-- FOR UPDATE, which are locked one by one and looked at again, and one commit.
def admitHandover (who : Nat) (g : Desk) (handover : Handover) (now : Nat) : Desk × Clerk :=
  if !handover.qrRequired then (g,.selecting handover now none)
  else match g.sessions.select fun _ session =>
      session.authorizationTokenHash == some (hash handover.authorizationToken) && !session.isDeleted with
    | [] => g.refuse who (forbidden "Topshirish ruxsati topilmadi")
    | (id,session) :: _ =>
      if g.locks.free who (.session id) then
        match handoverRefusal session handover now with
        | some error => g.refuse who error
        | none => (g.lock who (.session id),.selecting handover now (some id))
      else (g,.admitting handover now)
def Closure.apply (closure : Closure) (g : Desk) : Desk :=
  {g with
    depot:=handOver closure.now closure.handover.staff.requester.id closure.orders g.depot,
    sessions:=match closure.session with
      | none => g.sessions
      | some id => (Write.update id fun session => {session with consumedAt:=some closure.now}).apply g.sessions,
    deeds:=g.deeds ++ [.closed closure]}
def lockOrders (who : Nat) (g : Desk) (handover : Handover) (now : Nat) (session : Option Nat) (found : Table OrderRow) :
    List Nat → Desk × Clerk
  | [] =>
    if found.length ≠ handover.orderIds.length then
      g.refuse who (badRequest "Tanlangan orderlarning ayrimlari marketga tegishli emas, CANCELLED emas yoki HQda turmagan")
    else
      let closure : Closure := ⟨who,handover,now,session,found⟩
      (closure.apply (g.release who),.closed closure)
  | id :: pending =>
    if g.locks.free who (.order id) then
      let found := match g.depot.orders.row id with
        | some row => if handoverReady handover.marketId row.order then found ++ [(id,row)] else found
        | none => found
      (g.lock who (.order id),.locking handover now session pending found)
    else (g,.locking handover now session (id :: pending) found)

def Clerk.go (who : Nat) (random : String) (g : Desk) : Clerk → Desk × Clerk
  | .creating input => match createChecks input g.now random with
    | .error error => (g,.refused error)
    | .ok ticket => (g,.replacing ticket)
  | .replacing ticket =>
    (g,.deleting ticket ((g.sessions.select fun _ session => unscannedOf ticket.marketId session).map (·.1)) [])
  | .deleting ticket pending replaced => replaceSessions who g ticket replaced pending
  | .inserting ticket => insertSession hash who g ticket
  | .scanning input => match scanChecks input with
    | .error error => (g,.refused error)
    | .ok (qrToken,staff) => ({g with presented:=(qrToken,g.now) :: g.presented},.seeking qrToken staff)
  | .seeking qrToken staff => seekQr hash who g qrToken staff random
  | .saving id scan => saveScan hash who g id scan
  | .completing input => match completeChecks input with
    | .error error => (g,.refused error)
    | .ok handover => ({g with presented:=(handover.authorizationToken,g.now) :: g.presented},.admitting handover g.now)
  | .admitting handover now => admitHandover hash who g handover now
  | .selecting handover now session =>
    (g,.locking handover now session
      ((g.depot.orders.select fun key row => handover.orderIds.contains key && handoverReady handover.marketId row.order).map (·.1)) [])
  | .locking handover now session pending found => lockOrders who g handover now session found pending
  | clerk => (g,clerk)

def nextStatement (who : Nat) (fate : Fate) (g : Desk) (clerk : Clerk) : Desk × Clerk :=
  if clerk.answered then (g,clerk)
  else match fate with
    | .goes random => clerk.go hash who random g
    | .fails error => g.refuse who error
    | .dies => (g.release who,.dead)

-- The token the next statement draws.
def Clerk.draws (random : String) : Clerk → Option String
  | .creating _ => some (generateHandoverToken "MCR" random)
  | .seeking _ _ => some (generateHandoverToken "MHA" random)
  | _ => none

-- Between statements only the clock moves.
def handoverDesk : System Desk Clerk Request Fate Nat :=
  ⟨Request.clerk,nextStatement hash,fun ms g => {g with now:=g.now+ms}⟩
abbrev HandoverTurn := Turn Request Fate Nat
def serve (now : Nat) (depot : Depot) (turns : List HandoverTurn) : Machine Desk Clerk :=
  (handoverDesk hash).run (Desk.open now depot) turns

end Statements

-- Nobody has come with a token before it was drawn.
def Unguessed (m : Machine Desk Clerk) : HandoverTurn → Prop
  | .step who (.goes random) => ∀ token ∈ m.workers[who]?.bind (Clerk.draws random),∀ entry ∈ m.shared.presented,entry.1 ≠ token
  | _ => True
instance (m : Machine Desk Clerk) : (turn : HandoverTurn) → Decidable (Unguessed m turn)
  | .step who (.goes random) => inferInstanceAs
      (Decidable (∀ token ∈ m.workers[who]?.bind (Clerk.draws random),∀ entry ∈ m.shared.presented,entry.1 ≠ token))
  | .step _ (.fails _) | .step _ .dies | .arrive _ | .world _ => .isTrue trivial

end Elchi.Handovers
