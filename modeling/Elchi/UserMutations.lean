import Elchi.Common
import Elchi.RowLock
namespace Elchi.Users
open RowLock

inductive Status where
  | active | inactive
deriving DecidableEq, Repr
inductive CommissionType where
  | percent | fixed
deriving DecidableEq, Repr

-- What the mutations read and write of a user. NULL is none; name, salary and add_order are NOT NULL.
structure User where
  name : Option String
  phoneNumber : String
  username : Option String
  password : String
  salary : Option Int
  paymentDay : Option Int
  role : Role
  status : Status
  tariffHome : Option Int
  tariffCenter : Option Int
  addOrder : Option Bool
  defaultTariff : Option WhereDeliver
  commissionType : Option CommissionType
  commissionValue : Option Int
  isDeleted : Bool
deriving DecidableEq, Repr
-- A field that is none was not sent; `some none` is a null.
structure UpdateUserDto where
  name : Option (Option String) := none
  phoneNumber : Option String := none
  password : Option String := none
  status : Option Status := none
  salary : Option (Option Int) := none
  paymentDay : Option (Option Int) := none
  tariffHome : Option (Option Int) := none
  tariffCenter : Option (Option Int) := none
  addOrder : Option (Option Bool) := none
  defaultTariff : Option (Option WhereDeliver) := none
  commissionType : Option (Option CommissionType) := none
  commissionValue : Option (Option Int) := none
deriving DecidableEq, Repr

-- The session's user, under the id text of his own row.
structure RequesterContext where
  id : Nat
  roles : List Role
  allowedUserIds : List String := []
deriving DecidableEq, Repr

-- How the database reads the text of an id: several texts may name one row.
structure IdReader where
  read : String → Option Nat
  canonical : ∀ id : Nat,read (toString id) = some id

-- What one request meets outside its tables: bcrypt's salted hash, the clock, and whether the
-- catalog and the database do what they are asked.
structure Env where
  encrypt : String → String
  now : Nat
  productsDeleted : Bool
  saves : Bool

inductive Call where
  | update (id : String) (dto : UpdateUserDto)
  | setStatus (id : String) (status : Status)
  | delete (id : String)

def hasRole (requester : Option RequesterContext) (role : Role) : Bool := requester.any (·.roles.contains role)
def isSelfRequester (requester : Option RequesterContext) (targetUserId : String) : Bool :=
  requester.any fun requester => toString requester.id == targetUserId
def isPrivileged (requester : Option RequesterContext) : Bool := hasRole requester .superadmin || hasRole requester .admin
def allowedIds (requester : RequesterContext) : List String := (requester.allowedUserIds.map jsTrim).filter (· ≠ "")

def assertRequesterCanMutateUser (requester : Option RequesterContext) (targetUserId : String) (targetRole : Role) : Except RpcError Unit :=
  match requester with
  | none => .ok ()
  | some context =>
    if hasRole requester .superadmin then .ok ()
    else if hasRole requester .admin then
      if targetRole = .superadmin ∨ targetRole = .admin then .error (forbidden "Admin admin yoki superadminni boshqara olmaydi") else .ok ()
    else if isSelfRequester requester targetUserId then .ok ()
    else if hasRole requester .manager then
      if targetRole = .superadmin ∨ targetRole = .admin ∨ targetRole = .manager then
        .error (forbidden "Manager admin/superadmin/managerni boshqara olmaydi")
      else if jsTrim targetUserId ∉ allowedIds context then
        .error (forbidden "Manager faqat o'zi boshqaradigan userlarni yangilay oladi")
      else .ok ()
    else .error (forbidden "Bu amal uchun ruxsat yoq")

section Service
variable (reader : IdReader) (env : Env) (requester : Option RequesterContext)

def internal : RpcError := ⟨500,"Internal server error"⟩
def findUser (id : String) (table : Table User) : Except RpcError (Nat × User) :=
  match reader.read id with
  | none => .error internal
  | some key => match table.row key with
    | some admin => if admin.isDeleted then .error (notFound "User topilmadi") else .ok (key,admin)
    | none => .error (notFound "User topilmadi")
def save (key : Nat) (admin : User) (table : Table User) : Except RpcError (Table User) :=
  if env.saves && admin.name.isSome && admin.salary.isSome && admin.addOrder.isSome then
    .ok ((Write.update key fun _ => admin).apply table)
  else .error internal

def given (allowed : Bool) (sent : Option α) (old : α) : α := if allowed then sent.getD old else old
def sentText (text : Option String) : Option String := text.filter (· ≠ "")
def updatedUser (self : Bool) (dto : UpdateUserDto) (admin : User) : User :=
  let privileged := isPrivileged requester
  {admin with
    phoneNumber:=(sentText dto.phoneNumber).getD admin.phoneNumber,
    password:=((sentText dto.password).map env.encrypt).getD admin.password,
    name:=dto.name.getD admin.name,
    status:=given (!self) dto.status admin.status,
    salary:=given (!self) dto.salary admin.salary,
    paymentDay:=given (!self) dto.paymentDay admin.paymentDay,
    tariffHome:=given (privileged || !self) dto.tariffHome admin.tariffHome,
    tariffCenter:=given (privileged || !self) dto.tariffCenter admin.tariffCenter,
    addOrder:=given (!self) dto.addOrder admin.addOrder,
    defaultTariff:=given (privileged || !self) dto.defaultTariff admin.defaultTariff,
    commissionType:=given (privileged && !self) dto.commissionType admin.commissionType,
    commissionValue:=given (privileged && !self) dto.commissionValue admin.commissionValue}
-- ensurePhoneUnique compares the id of the other row with the text of the request.
def phoneTaken (id : String) (dto : UpdateUserDto) (admin : User) (table : Table User) : Bool :=
  (sentText dto.phoneNumber).any fun phone => phone != admin.phoneNumber &&
    (table.select fun _ user => user.phoneNumber == phone && !user.isDeleted).head?.any fun found => toString found.1 != id

def updateUser (id : String) (dto : UpdateUserDto) (table : Table User) : Except RpcError (Table User) := do
  let (key,admin) ← findUser reader id table
  assertRequesterCanMutateUser requester id admin.role
  if phoneTaken id dto admin table then .error ⟨409,"Bu telefon raqam allaqachon mavjud"⟩
  else save env key (updatedUser env requester (isSelfRequester requester id) dto admin) table
def setUserStatus (id : String) (status : Status) (table : Table User) : Except RpcError (Table User) := do
  let (key,user) ← findUser reader id table
  assertRequesterCanMutateUser requester id user.role
  save env key {user with status:=status} table

def cut (length : Nat) (text : String) : String := String.ofList (text.toList.take length)
def deletedUser (admin : User) : User :=
  {admin with
    isDeleted:=true,status:=.inactive,
    username:=(sentText admin.username).map fun username => cut 60 (username ++ "#del#" ++ toString (env.now % 100000)),
    phoneNumber:=cut 20 (admin.phoneNumber ++ "-d" ++ toString (env.now % 100000))}
def deleteUser (id : String) (table : Table User) : Except RpcError (Table User) := do
  let (key,admin) ← findUser reader id table
  assertRequesterCanMutateUser requester id admin.role
  if admin.role = .superadmin then .error (badRequest "Superadminni o‘chirib bo‘lmaydi")
  else if admin.role = .market ∧ env.productsDeleted = false then
    .error ⟨502,"Marketga tegishli productlarni o‘chirishda xatolik"⟩
  else save env key (deletedUser env admin) table

def Call.perform : Call → Table User → Except RpcError (Table User)
  | .update id dto,table => updateUser reader env requester id dto table
  | .setStatus id status,table => setUserStatus reader env requester id status table
  | .delete id,table => deleteUser reader env requester id table

end Service

def Call.id : Call → String
  | .update id _ => id
  | .setStatus id _ => id
  | .delete id => id

-- A request of an identified user, and the tables around each one of a sequence.
structure Request where
  env : Env
  requester : RequesterContext
  call : Call
structure Step where
  request : Request
  before : Table User
  answer : Except RpcError Unit
  after : Table User
def serve (reader : IdReader) (table : Table User) (request : Request) : Step :=
  match request.call.perform reader request.env (some request.requester) table with
  | .ok after => ⟨request,table,.ok (),after⟩
  | .error error => ⟨request,table,.error error,table⟩
def steps (reader : IdReader) : Table User → List Request → List Step
  | _,[] => []
  | table,request :: rest => serve reader table request :: steps reader (serve reader table request).after rest

-- What a user without ADMIN or SUPERADMIN may not change of himself.
def commissionOf (user : User) : Option CommissionType × Option Int := (user.commissionType,user.commissionValue)
def termsOf (user : User) : Status × Option Int × Option Int × Option Int × Option Int × Option WhereDeliver × Option Bool ×
    Option CommissionType × Option Int :=
  (user.status,user.salary,user.paymentDay,user.tariffHome,user.tariffCenter,user.defaultTariff,user.addOrder,commissionOf user)

-- The target's role is below the requester's highest one; a manager's target is one of his own users.
def Below (reader : IdReader) (requester : RequesterContext) (target : Nat) (role : Role) : Prop :=
  role ≠ .superadmin ∧ role ≠ .admin ∧
    (Role.admin ∈ requester.roles ∨ Role.manager ∈ requester.roles ∧ role ≠ .manager ∧
      ∃ id,reader.read id = some target ∧ jsTrim id ∈ allowedIds requester)
structure Lawful (reader : IdReader) (requester : RequesterContext) (target : Nat) (before after : User) : Prop where
  own : requester.id = target → isPrivileged (some requester) = false → termsOf after = termsOf before
  others : requester.id ≠ target → Role.superadmin ∉ requester.roles → after ≠ before → Below reader requester target before.role
  commission : commissionOf after ≠ commissionOf before → isPrivileged (some requester) = true ∧ requester.id ≠ target
def LawfulStep (reader : IdReader) (step : Step) : Prop :=
  (∀ target before,step.before.row target = some before →
    ∃ after,step.after.row target = some after ∧ Lawful reader step.request.requester target before after) ∧
  ∀ target,step.before.row target = none → step.after.row target = none

def UpdateUserDto.asked (dto : UpdateUserDto) (user : User) : User :=
  {user with
    status:=dto.status.getD user.status,salary:=dto.salary.getD user.salary,paymentDay:=dto.paymentDay.getD user.paymentDay,
    tariffHome:=dto.tariffHome.getD user.tariffHome,tariffCenter:=dto.tariffCenter.getD user.tariffCenter,
    addOrder:=dto.addOrder.getD user.addOrder,defaultTariff:=dto.defaultTariff.getD user.defaultTariff}
-- Defects: the status of one's own account is guarded in updateUser only, and updateUser knows
-- its caller's account by the text of the id only.
def SparedCall (requester : RequesterContext) (own : User) : Call → Prop
  | .update id dto => toString requester.id = id ∨
      if isPrivileged (some requester) then
        dto.commissionType.getD own.commissionType = own.commissionType ∧ dto.commissionValue.getD own.commissionValue = own.commissionValue
      else termsOf (dto.asked own) = termsOf own
  | .setStatus _ status => isPrivileged (some requester) = true ∨ own.status = status
  | .delete _ => isPrivileged (some requester) = true ∨ own.status = .inactive
def Spared (reader : IdReader) (step : Step) : Prop :=
  ∀ own,reader.read step.request.call.id = some step.request.requester.id → step.before.row step.request.requester.id = some own →
    SparedCall step.request.requester own step.request.call

section Call
variable {reader : IdReader} {env : Env} {requester : Option RequesterContext} {table after : Table User}

theorem findUser_ok {id : String} (found : findUser reader id table = .ok (key,admin)) :
    reader.read id = some key ∧ table.row key = some admin ∧ admin.isDeleted = false := by
  unfold findUser at found
  split at found
  · cases found
  rename_i named
  split at found
  · rename_i stored
    split at found
    · cases found
    · rename_i live
      cases found
      exact ⟨named,stored,Bool.eq_false_iff.mpr live⟩
  · cases found
theorem save_ok (saved : save env key admin table = .ok after) : after = (Write.update key fun _ => admin).apply table := by
  unfold save at saved
  split at saved
  · exact (Except.ok.inj saved).symm
  · cases saved

-- What an accepted call writes on the row it names.
def Call.edit (env : Env) (requester : Option RequesterContext) (user : User) : Call → User
  | .update id dto => updatedUser env requester (isSelfRequester requester id) dto user
  | .setStatus _ status => {user with status:=status}
  | .delete _ => deletedUser env user
theorem perform_ok {call : Call} (performed : call.perform reader env requester table = .ok after) :
    ∃ key user,reader.read call.id = some key ∧ table.row key = some user ∧
      assertRequesterCanMutateUser requester call.id user.role = .ok () ∧
      after = (Write.update key fun _ => call.edit env requester user).apply table := by
  cases call with
  | update id dto =>
    obtain ⟨⟨key,user⟩,found,rest⟩ := error_bind_parts (show Except.bind _ _ = _ from performed)
    obtain ⟨⟨⟩,allowed,rest⟩ := error_bind_parts rest
    obtain ⟨named,stored,-⟩ := findUser_ok found
    refine ⟨key,user,named,stored,allowed,?_⟩
    split at rest
    · cases rest
    · exact save_ok rest
  | setStatus id status =>
    obtain ⟨⟨key,user⟩,found,rest⟩ := error_bind_parts (show Except.bind _ _ = _ from performed)
    obtain ⟨⟨⟩,allowed,rest⟩ := error_bind_parts rest
    obtain ⟨named,stored,-⟩ := findUser_ok found
    exact ⟨key,user,named,stored,allowed,save_ok rest⟩
  | delete id =>
    obtain ⟨⟨key,user⟩,found,rest⟩ := error_bind_parts (show Except.bind _ _ = _ from performed)
    obtain ⟨⟨⟩,allowed,rest⟩ := error_bind_parts rest
    obtain ⟨named,stored,-⟩ := findUser_ok found
    refine ⟨key,user,named,stored,allowed,?_⟩
    split at rest
    · cases rest
    split at rest
    · cases rest
    · exact save_ok rest

end Call

-- The three ways past the check.
theorem assert_ok {requester : RequesterContext} {id : String} {role : Role}
    (allowed : assertRequesterCanMutateUser (some requester) id role = .ok ()) :
    Role.superadmin ∈ requester.roles ∨ Role.superadmin ∉ requester.roles ∧
      (Role.admin ∈ requester.roles ∧ role ≠ .superadmin ∧ role ≠ .admin ∨ Role.admin ∉ requester.roles ∧
        (toString requester.id = id ∨ toString requester.id ≠ id ∧ Role.manager ∈ requester.roles ∧
          role ≠ .superadmin ∧ role ≠ .admin ∧ role ≠ .manager ∧ jsTrim id ∈ allowedIds requester)) := by
  simp only [assertRequesterCanMutateUser,hasRole,isSelfRequester,Option.any_some,List.contains_iff_mem,beq_iff_eq] at allowed
  split at allowed
  · rename_i super
    exact .inl super
  rename_i super
  refine .inr ⟨super,?_⟩
  split at allowed
  · rename_i admin
    split at allowed
    · cases allowed
    · rename_i low
      exact .inl ⟨admin,fun same => low (.inl same),fun same => low (.inr same)⟩
  rename_i admin
  refine .inr ⟨admin,?_⟩
  split at allowed
  · rename_i self
    exact .inl self
  rename_i self
  refine .inr ⟨self,?_⟩
  split at allowed
  · rename_i manager
    split at allowed
    · cases allowed
    · rename_i low
      split at allowed
      · cases allowed
      · rename_i inside
        exact ⟨manager,fun same => low (.inl same),fun same => low (.inr (.inl same)),fun same => low (.inr (.inr same)),not_not.mp inside⟩
  · cases allowed

-- Everyone else's call is lawful, whatever it edits.
theorem other_below {reader : IdReader} {requester : RequesterContext} {id : String} {role : Role} (named : reader.read id = some target)
    (apart : requester.id ≠ target) (low : Role.superadmin ∉ requester.roles)
    (allowed : assertRequesterCanMutateUser (some requester) id role = .ok ()) : Below reader requester target role := by
  have text : toString requester.id ≠ id := by
    rintro rfl
    rw [reader.canonical] at named
    exact apart (Option.some.inj named)
  rcases assert_ok allowed with super | ⟨-,⟨admin,apartSuper,apartAdmin⟩ | ⟨-,self | ⟨-,manager,apartSuper,apartAdmin,apartManager,inside⟩⟩⟩
  · exact absurd super low
  · exact ⟨apartSuper,apartAdmin,.inl admin⟩
  · exact absurd self text
  · exact ⟨apartSuper,apartAdmin,.inr ⟨manager,apartManager,id,named,inside⟩⟩

theorem edit_commission (env : Env) (requester : RequesterContext) (user : User) {call : Call}
    (changed : commissionOf (call.edit env (some requester) user) ≠ commissionOf user) : isPrivileged (some requester) = true := by
  cases call with
  | update id dto =>
    by_contra common
    apply changed
    simp [commissionOf,Call.edit,updatedUser,given,common]
  | setStatus id status => exact absurd rfl changed
  | delete id => exact absurd rfl changed

theorem other_lawful {reader : IdReader} {requester : RequesterContext} {call : Call} {user : User} (env : Env)
    (named : reader.read call.id = some target) (apart : requester.id ≠ target)
    (allowed : assertRequesterCanMutateUser (some requester) call.id user.role = .ok ()) :
    Lawful reader requester target user (call.edit env (some requester) user) where
  own same := absurd same apart
  others _ low _ := other_below named apart low allowed
  commission changed := ⟨edit_commission env requester user changed,apart⟩

theorem own_lawful (reader : IdReader) (env : Env) (requester : RequesterContext) (user : User) (call : Call) :
    Lawful reader requester requester.id user (call.edit env (some requester) user) ↔ SparedCall requester user call := by
  have law : Lawful reader requester requester.id user (call.edit env (some requester) user) ↔
      (isPrivileged (some requester) = false → termsOf (call.edit env (some requester) user) = termsOf user) ∧
      commissionOf (call.edit env (some requester) user) = commissionOf user :=
    ⟨fun lawful => ⟨lawful.own rfl,by_contra fun changed => (lawful.commission changed).2 rfl⟩,
     fun ⟨own,commission⟩ => ⟨fun _ => own,fun apart => absurd rfl apart,fun changed => absurd commission changed⟩⟩
  rw [law]
  cases call with
  | update id dto =>
    have mine : isSelfRequester (some requester) id = (toString requester.id == id) := rfl
    by_cases self : toString requester.id = id
    · rw [beq_iff_eq.mpr self] at mine
      refine iff_of_true ⟨fun common => ?_,?_⟩ (.inl self)
      · simp [Call.edit,updatedUser,mine,given,termsOf,commissionOf,common]
      · simp [Call.edit,updatedUser,mine,given,commissionOf]
    · rw [beq_eq_false_iff_ne.mpr self] at mine
      rw [SparedCall,or_iff_right self]
      cases power : isPrivileged (some requester) with
      | true => simp [Call.edit,updatedUser,mine,given,commissionOf,power]
      | false => simp [Call.edit,updatedUser,mine,given,commissionOf,termsOf,UpdateUserDto.asked,power]
  | setStatus id status =>
    cases power : isPrivileged (some requester) with
    | true => simp [Call.edit,commissionOf,SparedCall,power]
    | false => simp [Call.edit,commissionOf,termsOf,SparedCall,power,eq_comm]
  | delete id =>
    cases power : isPrivileged (some requester) with
    | true => simp [Call.edit,deletedUser,commissionOf,SparedCall,power]
    | false => simp [Call.edit,deletedUser,commissionOf,termsOf,SparedCall,power,eq_comm]

theorem lawful_same (reader : IdReader) (requester : RequesterContext) (target : Nat) (user : User) :
    Lawful reader requester target user user :=
  ⟨fun _ _ => rfl,fun _ _ changed => absurd rfl changed,fun changed => absurd rfl changed⟩

-- A refused call changes nothing; an accepted one is lawful exactly where it is spared.
theorem step_lawful (reader : IdReader) (table : Table User) (request : Request) :
    LawfulStep reader (serve reader table request) ↔
      ((serve reader table request).answer = .ok () → Spared reader (serve reader table request)) := by
  obtain ⟨env,requester,call⟩ := request
  unfold serve
  cases performed : call.perform reader env (some requester) table with
  | error error =>
    refine iff_of_true ⟨fun target user stored => ⟨user,stored,lawful_same reader requester target user⟩,fun _ absent => absent⟩ ?_
    intro answered
    cases answered
  | ok after =>
    obtain ⟨key,user,named,stored,allowed,rfl⟩ := perform_ok performed
    have rows := fun target => apply_row (Write.update key fun _ => call.edit env (some requester) user) table target
    simp only [Write.key,Write.result] at rows
    have here := (rows key).trans (if_pos rfl)
    rw [stored,Option.map_some] at here
    dsimp only
    constructor
    · intro lawful answered own mine current
      have self : requester.id = key := Option.some.inj (mine.symm.trans named)
      subst self
      cases stored.symm.trans current
      obtain ⟨changed,found,law⟩ := lawful.1 requester.id user stored
      cases here.symm.trans found
      exact (own_lawful reader env requester user call).mp law
    · intro spared
      constructor
      · intro target before current
        by_cases same : key = target
        · subst same
          cases stored.symm.trans current
          refine ⟨_,here,?_⟩
          by_cases self : requester.id = key
          · subst self
            exact (own_lawful reader env requester user call).mpr (spared rfl user named stored)
          · exact other_lawful env named self allowed
        · refine ⟨before,?_,lawful_same reader requester target before⟩
          exact (rows target).trans ((if_neg same).trans current)
      · intro target absent
        have apart : key ≠ target := by
          rintro rfl
          cases stored.symm.trans absent
        exact (rows target).trans ((if_neg apart).trans absent)

theorem steps_served (reader : IdReader) {requests : List Request} (member : step ∈ steps reader table requests) :
    ∃ before request,step = serve reader before request := by
  induction requests generalizing table with
  | nil => cases member
  | cons request rest ih =>
    rcases List.mem_cons.mp member with here | later
    · exact ⟨table,request,here⟩
    · exact ih later

-- Whatever the sequence, no call escalates exactly when every accepted one is spared.
theorem no_escalation_exact (reader : IdReader) (table : Table User) (requests : List Request) :
    (∀ step ∈ steps reader table requests,LawfulStep reader step) ↔
      ∀ step ∈ steps reader table requests,step.answer = .ok () → Spared reader step := by
  apply forall₂_congr
  intro step member
  obtain ⟨before,request,rfl⟩ := steps_served reader member
  exact step_lawful reader before request

-- Decimal digits, with any number of zeros in front.
def decimal (text : String) : Option Nat :=
  if text.toList ≠ [] ∧ text.toList.all Char.isDigit then some (Nat.ofDigitChars 10 text.toList 0) else none
theorem decimal_canonical (id : Nat) : decimal (toString id) = some id := by
  have digits : (toString id).toList = Nat.toDigits 10 id := Nat.toList_repr
  have shown : (Nat.toDigits 10 id).all Char.isDigit = true :=
    List.all_eq_true.mpr fun c member => Nat.isDigit_of_mem_toDigits (by decide) (by decide) member
  rw [decimal,digits,if_pos ⟨Nat.toDigits_ne_nil,shown⟩,Nat.ofDigitChars_ten_toDigits]
def decimalReader : IdReader := ⟨decimal,decimal_canonical⟩

-- Market 7, switched off by an admin, and superadmin 1.
def marketUser : User :=
  {name:=some "Market",phoneNumber:="+998901112233",username:=none,password:="x",salary:=some 0,paymentDay:=none,role:=.market,
   status:=.inactive,tariffHome:=some 3500000,tariffCenter:=some 3000000,addOrder:=some false,defaultTariff:=some .center,
   commissionType:=none,commissionValue:=none,isDeleted:=false}
def chief : User := {marketUser with phoneNumber:="+998900000001",role:=.superadmin,status:=.active}
def users : Table User := [(1,chief),(7,marketUser)]
def plainEnv : Env := ⟨id,0,true,true⟩
def reactivation : Request := ⟨plainEnv,{id:=7,roles:=[.market]},.setStatus "7" .active⟩
def ownCommission : Request :=
  ⟨plainEnv,{id:=1,roles:=[.superadmin]},.update "01" {commissionType:=some (some .fixed),commissionValue:=some (some 500000)}⟩

theorem own_account_changed :
    (serve decimalReader users reactivation).answer = .ok () ∧ ¬LawfulStep decimalReader (serve decimalReader users reactivation) ∧
    (serve decimalReader users ownCommission).answer = .ok () ∧ ¬LawfulStep decimalReader (serve decimalReader users ownCommission) := by
  have reactivated : (serve decimalReader users reactivation).after.row 7 = some {marketUser with status:=.active} := by decide
  have raised : (serve decimalReader users ownCommission).after.row 1 =
      some {chief with commissionType:=some .fixed,commissionValue:=some 500000} := by decide
  refine ⟨by decide,?_,by decide,?_⟩
  · intro lawful
    obtain ⟨after,found,law⟩ := lawful.1 7 marketUser rfl
    cases reactivated.symm.trans found
    exact absurd (congrArg Prod.fst (law.own rfl rfl)) (by decide)
  · intro lawful
    obtain ⟨after,found,law⟩ := lawful.1 1 chief rfl
    cases raised.symm.trans found
    exact (law.commission (by decide)).2 rfl

end Elchi.Users
