import Elchi.ProviderWebhooks
import Elchi.Fifo
namespace Elchi.Remittances
open RowLock hiding Machine Turn
open Interleaving
open Webhooks (Receivable ReceivableStatus ReceivableWrite Drive Fate recordProviderReceivable cancelProviderReceivable liveReceivable)

structure RemittanceInput where
  integrationId : Nat
  amount : Int
  reference : Option String
  note : Option String
  orderIds : List Nat
  createdBy : Option Nat
deriving DecidableEq, Repr
structure Remittance where
  integrationId : Nat
  amount : Int
  reference : Option String
  note : Option String
  settledCount : Nat
  createdBy : Option Nat
deriving DecidableEq, Repr
structure RemittanceAnswer where
  remittanceId : Nat
  integrationId : Nat
  remittedAmount : Int
  settledAmount : Int
  settledCount : Nat
  unappliedAmount : Int
deriving DecidableEq, Repr

-- Pending rows oldest first, rows of one time in the order of the table.
def oldestFirst (rows : Table Receivable) : Table Receivable := rows.mergeSort fun left right => left.2.createdAt ≤ right.2.createdAt
def pendingRows (input : RemittanceInput) (receivables : Table Receivable) : Table Receivable :=
  oldestFirst (receivables.select fun _ row => row.integrationId == input.integrationId && row.status == .pending && !row.isDeleted &&
    (input.orderIds.isEmpty || input.orderIds.contains row.orderId))

-- createRemittance inside its transaction: the rows it has read, those it has saved and those still
-- to come.
structure Settling where
  input : RemittanceInput
  remittanceId : Nat
  now : Nat
  pending : Table Receivable
  settled : Table Receivable
  rest : Table Receivable
  remaining : Int
  settledAmount : Int
  settledCount : Nat
deriving DecidableEq, Repr

def Settling.start (input : RemittanceInput) (remittanceId now : Nat) (pending : Table Receivable) : Settling :=
  ⟨input,remittanceId,now,pending,[],pending,input.amount,0,0⟩
-- The row the loop saves next. Without order ids it stops at one the remitted amount no longer
-- covers.
def Settling.next (tx : Settling) : Option (Nat × Receivable) :=
  match tx.rest with
  | [] => none
  | entry :: _ => if tx.input.orderIds.isEmpty && tx.remaining < entry.2.amount then none else some entry
def Settling.take (tx : Settling) (entry : Nat × Receivable) : Settling :=
  {tx with
    settled:=tx.settled ++ [entry],rest:=tx.rest.tail,remaining:=tx.remaining-entry.2.amount,
    settledAmount:=tx.settledAmount+entry.2.amount,settledCount:=tx.settledCount+1}
def Settling.row (tx : Settling) (row : Receivable) : Receivable :=
  {row with status:=.settled,remittanceId:=some tx.remittanceId,settledAt:=some tx.now}
def Settling.writes (tx : Settling) : List (Write Receivable) := tx.settled.map fun entry => .update entry.1 fun _ => tx.row entry.2
def Settling.remittance (tx : Settling) : Remittance :=
  ⟨tx.input.integrationId,tx.input.amount,tx.input.reference,tx.input.note,tx.settledCount,tx.input.createdBy⟩
def Settling.answer (tx : Settling) : RemittanceAnswer :=
  ⟨tx.remittanceId,tx.input.integrationId,tx.input.amount,tx.settledAmount,tx.settledCount,tx.input.amount-tx.settledAmount⟩

-- The committed rows, and the receivables locked by a transaction that has saved them.
structure Books where
  now : Nat
  receivables : Table Receivable
  nextReceivableId : Nat
  remittances : Table Remittance
  nextRemittanceId : Nat
  locks : Locks Nat

inductive Request where
  | remit (input : RemittanceInput)
  | record (integrationId : Nat) (drive : Drive) (amount : Int)
  | cancel (integrationId orderId : Nat)
-- Where a request stands between two statements.
inductive Clerk where
  | remitting (input : RemittanceInput)
  | finding (input : RemittanceInput)
  | opening (input : RemittanceInput) (pending : Table Receivable)
  | settling (tx : Settling)
  | counting (tx : Settling)
  | committing (tx : Settling)
  | remitted (tx : Settling) (answer : RemittanceAnswer)
  | recording (integrationId : Nat) (drive : Drive) (amount : Int)
  | cancelling (integrationId orderId : Nat)
  | saving (write : ReceivableWrite)
  | saved
  | refused (error : RpcError)
  | failed
  | dead

def Request.clerk : Request → Clerk
  | .remit input => .remitting input
  | .record integrationId drive amount => .recording integrationId drive amount
  | .cancel integrationId orderId => .cancelling integrationId orderId
def Clerk.answered : Clerk → Bool
  | .remitted _ _ | .saved | .refused _ | .failed | .dead => true
  | _ => false

def Books.release (g : Books) (who : Nat) : Books := {g with locks:=g.locks.release who}
def Books.commit (g : Books) (tx : Settling) : Books :=
  {g with receivables:=applyWrites g.receivables tx.writes,remittances:=g.remittances ++ [(tx.remittanceId,tx.remittance)]}
-- An insert that finds a live receivable of the order is refused by the unique index.
def Books.insert (g : Books) (row : Receivable) : Books :=
  {g with receivables:=g.receivables.put g.nextReceivableId row,nextReceivableId:=g.nextReceivableId+1}
def Books.save (g : Books) (id : Nat) (row : Receivable) : Books := {g with receivables:=(Write.update id fun _ => row).apply g.receivables}
def proposed (g : Books) : Option ReceivableWrite → Books × Clerk
  | none => (g,.saved)
  | some write => (g,.saving write)

-- A statement that succeeds. A save waits for the row while another transaction holds it, and then
-- writes it as it was read; `integrations` are the ones that exist.
def Clerk.go (integrations : List Nat) (who : Nat) (g : Books) : Clerk → Books × Clerk
  | .remitting input =>
    if ¬ 0 < input.amount then (g,.refused (badRequest "amount must be greater than 0"))
    else if integrations.contains input.integrationId then (g,.finding input)
    else (g,.refused (notFound "Integration not found"))
  | .finding input => (g,.opening input (pendingRows input g.receivables))
  | .opening input pending => ({g with nextRemittanceId:=g.nextRemittanceId+1},.settling (.start input g.nextRemittanceId g.now pending))
  | .settling tx => match tx.next with
    | none => (g,.counting tx)
    | some entry =>
      if g.locks.free who entry.1 then ({g with locks:=(entry.1,who) :: g.locks},.settling (tx.take entry))
      else (g,.settling tx)
  | .counting tx => (g,.committing tx)
  | .committing tx => ((g.commit tx).release who,.remitted tx tx.answer)
  | .recording integrationId drive amount => proposed g (recordProviderReceivable g.now integrationId drive amount g.receivables)
  | .cancelling integrationId orderId => proposed g (cancelProviderReceivable integrationId orderId g.receivables)
  | .saving (.save id row) => if g.locks.free who id then (g.save id row,.saved) else (g,.saving (.save id row))
  | .saving (.insert row) =>
    if (liveReceivable g.receivables row.integrationId row.orderId).isSome then (g,.failed) else (g.insert row,.saved)
  | clerk => (g,clerk)

-- An error rolls a transaction back and gives up its locks, as the death of the process does.
def nextStatement (integrations : List Nat) (who : Nat) (fate : Fate) (g : Books) (clerk : Clerk) : Books × Clerk :=
  if clerk.answered then (g,clerk)
  else match fate with
    | .goes => clerk.go integrations who g
    | .fails => (g.release who,.failed)
    | .lost => ((clerk.go integrations who g).1.release who,.failed)
    | .dies => (g.release who,.dead)

-- Any number of requests at a time. Between statements only the clock moves.
def receivableBooks (integrations : List Nat) : System Books Clerk Request Fate Nat :=
  ⟨Request.clerk,nextStatement integrations,fun ms g => {g with now:=g.now+ms}⟩
abbrev BooksTurn := Turn Request Fate Nat
def Books.start (now : Nat) : Books := ⟨now,[],1,[],1,[]⟩

-- The receivable the next statement saves, unless it has to wait for it.
def Clerk.saves (who : Nat) (g : Books) : Clerk → Option Nat
  | .settling tx => (tx.next.map (·.1)).filter fun id => g.locks.free who id
  | .saving (.save id _) => some id |>.filter fun id => g.locks.free who id
  | _ => none
-- No save finds that a remittance has settled the receivable since it was read.
def Unsettled (m : Machine Books Clerk) : BooksTurn → Prop
  | .step who _ => ∀ id ∈ m.workers[who]?.bind (Clerk.saves who m.shared),∀ row ∈ m.shared.receivables.row id,row.status ≠ .settled
  | _ => True
instance (m : Machine Books Clerk) : (turn : BooksTurn) → Decidable (Unsettled m turn)
  | .step who _ => inferInstanceAs (Decidable
      (∀ id ∈ m.workers[who]?.bind (Clerk.saves who m.shared),∀ row ∈ m.shared.receivables.row id,row.status ≠ .settled))
  | .arrive _ | .world _ => .isTrue trivial

end Elchi.Remittances
