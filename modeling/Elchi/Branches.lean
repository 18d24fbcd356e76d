import Elchi.UserMutations
import Elchi.Interleaving
import Elchi.ParentTrees
namespace Elchi.Branches
open RowLock ParentTrees
open Users (IdReader internal)

inductive BranchType where
  | hq | pickup | regional | hybrid
deriving DecidableEq, Repr
inductive Status where
  | active | inactive
deriving DecidableEq, Repr
inductive BranchUserRole where
  | manager | registrator | courier
deriving DecidableEq, Repr

structure Branch where
  name : String
  parentId : Option Nat
  type : BranchType
  level : Int
  code : Option String
  status : Status
  isDeleted : Bool
deriving DecidableEq, Repr
-- `nextId` is the sequence of the primary key.
structure Store where
  branches : Table Branch
  nextId : Nat

structure CreateBranchDto where
  name : Option String
  type : Option String
  code : Option String
  parentId : Option String
-- A field that was not sent is none, and a parent sent as null is some none.
structure UpdateBranchDto where
  name : Option String := none
  type : Option String := none
  code : Option String := none
  parentId : Option (Option String) := none
  status : Option String := none
structure RequesterContext where
  id : Option String
  roles : List String
inductive Call where
  | create (dto : CreateBranchDto)
  | update (id : String) (dto : UpdateBranchDto) (requester : Option RequesterContext)
  | delete (id : String) (requester : Option RequesterContext)
  | ensureHq

-- The settings of the service, and the case maps of the two languages.
structure Env where
  hqCode : String
  hqName : String
  toUpperCase : String → String
  toLowerCase : String → String
  lower : String → String
-- What the outside answers to one statement: whether it succeeds, which of several rows an
-- unordered LIMIT 1 returns, how many rounds of a recursive query there is time for, and the
-- answers of other tables and services.
structure Choice where
  goes : Bool := true
  pick : Nat := 0
  rounds : Nat := 0
  assignments : List (Nat × BranchUserRole) := []
  activeUsers : Nat := 0
  canDelete : Except String (Option (Int × Int)) := .ok none

-- The statement a request is at.
inductive Stage where
  | scope | tree (roots : List Nat) | load
  | name (nextName : String) | code (nextCode : String) | hq
  | climb (parentId : String) (visited : List String) (currentId : String) | parent (parentId : String)
  | children | users | orders
  | hqByCode | anyHq
  | insert | save
  | rebalance (queue : List (Nat × Int)) (level : Int) (children : Table Branch)
  | done (reply : Except RpcError String)
-- A request, with the branch it has in memory and that branch's id.
structure Request where
  call : Call
  id : Nat
  branch : Branch
  stage : Stage

def conflict (message : String) : RpcError := ⟨409,message⟩
def Request.ends (request : Request) (reply : Except RpcError String) : Request := {request with stage:=.done reply}
def proceed (request : Request) : Except RpcError Request → Request
  | .ok next => next
  | .error error => request.ends (.error error)

-- What the statements find.
section Queries
variable (branches : Table Branch)

def live : Table Branch := branches.select fun _ branch => !branch.isDeleted
def branchById (id : Nat) : Option Branch := (branches.row id).filter fun branch => !branch.isDeleted
def childrenOf (id : Nat) : Table Branch := branches.select fun _ branch => !branch.isDeleted && branch.parentId == some id
def pickOne (pick : Nat) (rows : Table Branch) : Option (Nat × Branch) := rows[pick % rows.length]?
def collectDescendantBranchIds (rounds : Nat) (roots : List Nat) : Option (List Nat) :=
  descend (fun id => (childrenOf branches id).map (·.1)) rounds (((live branches).select fun id _ => roots.contains id).map (·.1))
-- findBranchDescendants, from its one read of all branches on.
def findBranchDescendants (steps : Nat) (id : Nat) : Option (List Nat) :=
  sweep (fun id => (childrenOf ((live branches).mergeSort fun a b => decide (a.2.level ≤ b.2.level)) id).map (·.1)) steps [id]

end Queries

section Service
variable (reader : IdReader) (env : Env)

def sqlTrim (text : String) : String :=
  String.ofList ((text.toList.dropWhile (· == ' ')).reverse.dropWhile (· == ' ')).reverse
def nameKey (name : String) : String := env.lower (sqlTrim name)
def findBranch (branches : Table Branch) (id : String) : Except RpcError (Option (Nat × Branch)) :=
  match reader.read id with
  | none => .error internal
  | some key => .ok ((branchById branches key).map fun branch => (key,branch))
def getBranchOrThrow (branches : Table Branch) (id : String) : Except RpcError (Nat × Branch) := do
  match ← findBranch reader branches id with
  | none => .error (notFound "Branch not found")
  | some found => .ok found

def isSystemPrivileged (requester : Option RequesterContext) : Bool :=
  let roles := (requester.elim [] (·.roles)).map env.toLowerCase
  roles.contains "superadmin" || roles.contains "admin"
def parseBranchType (type : Option String) : Except RpcError BranchType :=
  match env.toUpperCase (jsTrim (type.getD "")) with
  | "HQ" => .ok .hq
  | "PICKUP" => .ok .pickup
  | "REGIONAL" => .ok .regional
  | "HYBRID" => .ok .hybrid
  | _ => .error (badRequest "type must be one of: HQ, PICKUP, REGIONAL, HYBRID")
def codeChar (c : Char) : Bool := ('A' ≤ c && c ≤ 'Z') || ('0' ≤ c && c ≤ '9') || c == '-'
def normalizeBranchCode (code : Option String) : Except RpcError String :=
  let normalized := env.toUpperCase (jsTrim (code.getD ""))
  if normalized = "" then .error (badRequest "code is required")
  else if 2 ≤ normalized.length ∧ normalized.length ≤ 32 ∧ normalized.toList.all codeChar then .ok normalized
  else .error (badRequest "code must match /^[A-Z0-9-]\x7b2,32\x7d$/")
def parseStatus (status : Option String) : Except RpcError (Option Status) :=
  match status.filter (· ≠ "") with
  | none => .ok none
  | some status => match env.toLowerCase status with
    | "active" => .ok (some .active)
    | "inactive" => .ok (some .inactive)
    | _ => .error (badRequest "status must be either 'active' or 'inactive'")
def normalizeNullableBigint (value : Option String) : Option String := value.filter (· ≠ "")

-- The unique indexes on the code of every branch and on the name of every live one.
def refused (branches : Table Branch) (id : Nat) (branch : Branch) : Bool :=
  branches.any fun entry => entry.1 != id && ((branch.code.isSome && entry.2.code == branch.code) ||
    (!branch.isDeleted && !entry.2.isDeleted && nameKey env entry.2.name == nameKey env branch.name))
-- The row a request's next statement stores, if it stores one.
def written (choice : Choice) (store : Store) (request : Request) : Option (Nat × Branch) :=
  let stored := match request.stage with
    | .insert => some (store.nextId,request.branch)
    | .save => some (request.id,request.branch)
    | .rebalance _ level ((id,child) :: _) => if child.level = level+1 then none else some (id,{child with level:=level+1})
    | _ => none
  stored.filter fun row => choice.goes && !refused env store.branches row.1 row.2
def Store.keep (store : Store) : Option (Nat × Branch) → Store
  | none => store
  | some (id,branch) => {store with branches:=store.branches.put id branch}

-- createBranch, from one statement to the next.
def startCreate (request : Request) (dto : CreateBranchDto) : Except RpcError Request :=
  let name := jsTrim (dto.name.getD "")
  if name = "" then .error (badRequest "name is required") else .ok {request with stage:=.name name}
def createNamed (request : Request) (dto : CreateBranchDto) (name : String) : Except RpcError Request := do
  let type ← parseBranchType env dto.type
  let code ← normalizeBranchCode env dto.code
  .ok {request with branch:=⟨name,none,type,0,some code,.active,false⟩,stage:=.code code}
def createCoded (request : Request) (dto : CreateBranchDto) : Except RpcError Request :=
  if request.branch.type = .hq then
    if (normalizeNullableBigint dto.parentId).isSome then .error (badRequest "HQ branch cannot have parent_id") else .ok {request with stage:=.hq}
  else match normalizeNullableBigint dto.parentId with
    | none => .error (badRequest "parent_id is required for non-HQ branches")
    | some parentId => .ok {request with stage:=.parent parentId}

-- updateBranch. The branch in memory is changed field by field.
def nextType (dto : UpdateBranchDto) (branch : Branch) : Except RpcError BranchType :=
  match dto.type with
  | some type => parseBranchType env (some type)
  | none => .ok branch.type
def nextParentId (dto : UpdateBranchDto) (branch : Branch) : Option String :=
  match dto.parentId with
  | some given => normalizeNullableBigint given
  | none => branch.parentId.map toString
def cyclic : RpcError := badRequest "Cyclic parent relation is not allowed"
-- The head of the loop in ensureNotCyclicParent.
def climbOn (request : Request) (parentId : String) (visited : List String) (currentId : String) : Except RpcError Request :=
  if currentId = toString request.id then .error cyclic
  else if visited.contains currentId then .error cyclic
  else .ok {request with stage:=.climb parentId (currentId :: visited) currentId}
def updateCoded (request : Request) (dto : UpdateBranchDto) : Except RpcError Request := do
  if (← nextType env dto request.branch) = .hq then
    if (nextParentId dto request.branch).isSome then .error (badRequest "HQ branch cannot have parent_id") else .ok {request with stage:=.hq}
  else match nextParentId dto request.branch with
    | none => .error (badRequest "parent_id is required for non-HQ branches")
    | some parentId =>
      if toString request.id = parentId then .error (badRequest "Branch cannot be parent of itself")
      else climbOn request parentId [] parentId
def updateNamed (request : Request) (dto : UpdateBranchDto) : Except RpcError Request := do
  let _ ← nextType env dto request.branch
  match dto.code with
  | some code => .ok {request with stage:=.code (← normalizeBranchCode env (some code))}
  | none => updateCoded env request dto
def updateLoaded (request : Request) (dto : UpdateBranchDto) : Except RpcError Request :=
  match dto.name with
  | none => updateNamed env request dto
  | some name =>
    let nextName := jsTrim name
    if nextName = "" then .error (badRequest "name cannot be empty")
    else if env.toLowerCase nextName ≠ env.toLowerCase request.branch.name then .ok {request with stage:=.name nextName}
    else updateNamed env {request with branch:={request.branch with name:=nextName}} dto
def updatePlaced (request : Request) (dto : UpdateBranchDto) (parentId : Option Nat) (level : Int) : Except RpcError Request := do
  let type ← nextType env dto request.branch
  let status ← parseStatus env dto.status
  .ok {request with branch:={request.branch with parentId,level,type,status:=status.getD request.branch.status},stage:=.save}

def deleteLoaded (request : Request) : Request := {request with stage:=.children}
def deleteCounted (request : Request) : Except String (Option (Int × Int)) → Except RpcError Request
  | .error message => .error (badRequest ("Cannot verify branch is safe to delete (order-service unreachable): " ++ message))
  | .ok canDelete =>
    let (orders,batches) := canDelete.getD (0,0)
    if orders > 0 ∨ batches > 0 then
      .error (badRequest ("Cannot delete branch — " ++ toString orders ++ " active order(s) and " ++ toString batches ++
        " active transfer batch(es) reference it."))
    else .ok {request with branch:={request.branch with isDeleted:=true,status:=.inactive},stage:=.save}

-- What each statement does with its answer.
def granted (request : Request) (requester : Option RequesterContext) : Request :=
  if isSystemPrivileged env requester then {request with stage:=.load}
  else if jsTrim ((requester.bind (·.id)).getD "") = "" then request.ends (.error (forbidden "Requester aniqlanmadi"))
  else {request with stage:=.scope}
def start (call : Call) : Request :=
  let request : Request := ⟨call,0,⟨"",none,.pickup,0,none,.active,false⟩,.load⟩
  match call with
  | .create dto => proceed request (startCreate request dto)
  | .update _ _ requester => granted env request requester
  | .delete _ requester => granted env request requester
  | .ensureHq => {request with stage:=.hqByCode}
def Call.target : Call → String
  | .update id _ _ => id
  | .delete id _ => id
  | _ => ""

def answerLoad (branches : Table Branch) (request : Request) : Except RpcError Request := do
  let (id,branch) ← getBranchOrThrow reader branches request.call.target
  let loaded : Request := {request with id,branch}
  match request.call with
  | .update _ dto _ => updateLoaded env loaded dto
  | _ => .ok (deleteLoaded loaded)
def answerName (choice : Choice) (branches : Table Branch) (request : Request) (nextName : String) : Except RpcError Request :=
  let found := pickOne choice.pick ((live branches).select fun _ branch => nameKey env branch.name == env.lower nextName)
  match request.call with
  | .create dto => if found.isSome then .error (conflict "Branch with this name already exists") else createNamed env request dto nextName
  | .update _ dto _ =>
    if found.any (·.1 != request.id) then .error (conflict "Branch with this name already exists")
    else updateNamed env {request with branch:={request.branch with name:=nextName}} dto
  | _ => .ok request
def answerCode (choice : Choice) (branches : Table Branch) (request : Request) (nextCode : String) : Except RpcError Request :=
  let found := pickOne choice.pick ((live branches).select fun _ branch => branch.code == some nextCode)
  match request.call with
  | .create dto => if found.isSome then .error (conflict "Branch with this code already exists") else createCoded request dto
  | .update _ dto _ =>
    if found.any (·.1 != request.id) then .error (conflict "Branch with this code already exists")
    else updateCoded env {request with branch:={request.branch with code:=some nextCode}} dto
  | _ => .ok request
def answerHq (choice : Choice) (branches : Table Branch) (request : Request) : Except RpcError Request :=
  let found := pickOne choice.pick ((live branches).select fun _ branch => branch.type == .hq)
  match request.call with
  | .create _ => if found.isSome then .error (conflict "Only one HQ branch is allowed") else .ok {request with stage:=.insert}
  | .update _ dto _ =>
    if found.any (·.1 != request.id) then .error (conflict "Only one HQ branch is allowed") else updatePlaced env request dto none 0
  | _ => .ok request
def answerClimb (branches : Table Branch) (request : Request) (parentId : String) (visited : List String) (currentId : String) :
    Except RpcError Request := do
  match ← findBranch reader branches currentId with
  | none => .error (notFound "Parent branch not found")
  | some (_,current) => match current.parentId with
    | none => .ok {request with stage:=.parent parentId}
    | some next => climbOn request parentId visited (toString next)
def answerParent (branches : Table Branch) (request : Request) (parentId : String) : Except RpcError Request := do
  let (id,parent) ← getBranchOrThrow reader branches parentId
  match request.call with
  | .create _ => .ok {request with branch:={request.branch with parentId:=some id,level:=parent.level+1},stage:=.insert}
  | .update _ dto _ => updatePlaced env request dto (some id) (parent.level+1)
  | _ => .ok request
def answerHqByCode (choice : Choice) (branches : Table Branch) (request : Request) : Request :=
  match pickOne choice.pick ((live branches).select fun _ branch => branch.code == some env.hqCode) with
  | none => {request with stage:=.anyHq}
  | some (id,branch) =>
    if branch.type ≠ .hq ∨ branch.level ≠ 0 ∨ branch.parentId ≠ none then
      {request with id,branch:={branch with type:=.hq,level:=0,parentId:=none},stage:=.save}
    else request.ends (.ok "")
def answerAnyHq (choice : Choice) (branches : Table Branch) (request : Request) : Request :=
  match pickOne choice.pick ((live branches).select fun _ branch => branch.type == .hq) with
  | none => {request with branch:=⟨env.hqName,none,.hq,0,some env.hqCode,.active,false⟩,stage:=.insert}
  | some (id,branch) =>
    {request with id,branch:={branch with code:=some ((branch.code.filter (· ≠ "")).getD env.hqCode),parentId:=none,level:=0},stage:=.save}
def answerSaved (request : Request) : Request :=
  match request.call with
  | .create _ => request.ends (.ok "Branch created")
  | .update _ _ _ => {request with stage:=.rebalance [(request.id,request.branch.level)] 0 []}
  | .delete _ _ => request.ends (.ok "Branch deleted")
  | .ensureHq => request.ends (.ok "")

-- Where a statement that succeeded leaves its request.
def answered (choice : Choice) (store : Store) (request : Request) : Request :=
  let branches := store.branches
  match request.stage with
  | .scope => {request with stage:=.tree ((choice.assignments.filter (·.2 == .manager)).map (·.1))}
  | .tree roots => match collectDescendantBranchIds branches choice.rounds roots with
    | none => request
    | some _ => if roots.any (toString · == request.call.target) then {request with stage:=.load}
      else request.ends (.error (forbidden "Bu filialga yozish/o‘zgartirish ruxsati yo‘q"))
  | .load => proceed request (answerLoad reader env branches request)
  | .name nextName => proceed request (answerName env choice branches request nextName)
  | .code nextCode => proceed request (answerCode env choice branches request nextCode)
  | .hq => proceed request (answerHq env choice branches request)
  | .climb parentId visited currentId => proceed request (answerClimb reader branches request parentId visited currentId)
  | .parent parentId => proceed request (answerParent reader env branches request parentId)
  | .children => if childrenOf branches request.id = [] then {request with stage:=.users}
    else request.ends (.error (badRequest "Cannot delete branch with child branches"))
  | .users => if choice.activeUsers > 0 then
      request.ends (.error (badRequest ("Cannot delete branch — " ++ toString choice.activeUsers ++
        " active user(s) assigned. Reassign or remove them first.")))
    else {request with stage:=.orders}
  | .orders => proceed request (deleteCounted request choice.canDelete)
  | .hqByCode => answerHqByCode env choice branches request
  | .anyHq => answerAnyHq env choice branches request
  | .insert => if refused env branches store.nextId request.branch then request.ends (.error internal) else answerSaved request
  | .save => if refused env branches request.id request.branch then request.ends (.error internal) else answerSaved request
  | .rebalance [] _ [] => request.ends (.ok "Branch updated")
  | .rebalance ((id,level) :: queue) _ [] => {request with stage:=.rebalance queue level (childrenOf branches id)}
  | .rebalance queue level ((id,child) :: rest) =>
    if child.level ≠ level+1 ∧ refused env branches id {child with level:=level+1} then request.ends (.error internal)
    else {request with stage:=.rebalance (queue ++ [(id,level+1)]) level rest}
  | .done _ => request
-- Some steps of a request touch no table and cannot fail.
def inMemory : Stage → Bool
  | .rebalance [] _ [] => true
  | .rebalance _ level ((_,child) :: _) => child.level == level+1
  | .done _ => true
  | _ => false
-- An insert draws its key even when the index refuses it.
def Store.drawn (store : Store) (request : Request) : Store :=
  match request.stage with
  | .insert => {store with nextId:=store.nextId+1}
  | _ => store
def next (_who : Nat) (choice : Choice) (store : Store) (request : Request) : Store × Request :=
  if choice.goes || inMemory request.stage then
    ((store.drawn request).keep (written env choice store request),answered reader env choice store request)
  else (store,request.ends (.error internal))
def service : Interleaving.System Store Request Call Choice Unit := ⟨start env,next reader env,fun _ store => store⟩
abbrev BranchTurn := Interleaving.Turn Call Choice Unit
abbrev BranchRun := Interleaving.Machine Store Request

end Service

end Elchi.Branches
