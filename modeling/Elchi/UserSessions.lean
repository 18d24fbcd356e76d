import Mathlib.Data.List.Induction
import Elchi.UserMutations
import Elchi.Interleaving
namespace Elchi.Auth
open RowLock Users Interleaving
variable {T : Type}

-- The row of a user: what the mutations read of it, the interface settings and the hash of the
-- session's refresh token.
structure Account where
  user : User
  settings : Option String
  refreshToken : Option String
deriving DecidableEq, Repr
inductive Entry (T : Type) where
  | login (token : T) | logout | reuse
deriving DecidableEq, Repr
-- The table, and what has been committed to it of each user's sessions.
structure Store (T : Type) where
  accounts : Table Account
  log : List (Nat × Entry T)

-- Signed tokens, the hash they are stored under and bcrypt's comparison.
structure Tokens (T : Type) where
  sub : T → String
  username : T → Option String
  hash : T → String
  injective : ∀ a b,hash a = hash b → a = b
  compare : String → String → Bool

inductive Ask (T : Type) where
  | login (phoneNumber password : String)
  | refresh (refreshToken : T)
  | logout (userId : String)
  | change (env : Users.Env) (requester : Option RequesterContext) (call : Call)
  | settings (id : String) (settings : Option String)
-- Whether a statement succeeds, which row LIMIT 1 returns, whether the signature and the expiry of
-- a presented token verify, and the token signed for a login.
structure Choice (T : Type) where
  goes : Bool := true
  pick : Nat := 0
  verifies : Bool := true
  signed : Option T := none
inductive Stage (T : Type) where
  | read | phone | save | store
  | done (reply : Except RpcError (Option T))
-- A request with the row it has loaded.
structure Request (T : Type) where
  ask : Ask T
  key : Nat
  account : Account
  stage : Stage T

def unauthorized (message : String) : RpcError := ⟨401,message⟩
def invalidCredentials : RpcError := unauthorized "Invalid credentials"
def invalidToken : RpcError := unauthorized "Invalid refresh token"
def Request.ends (request : Request T) (reply : Except RpcError (Option T)) : Request T := {request with stage:=.done reply}
def proceed (request : Request T) : Except RpcError (Request T) → Request T
  | .ok next => next
  | .error error => request.ends (.error error)

section Service
variable (reader : IdReader) (tokens : Tokens T)

def findAccount (id : String) (accounts : Table Account) (missing : RpcError) : Except RpcError (Nat × Account) :=
  match reader.read id with
  | none => .error internal
  | some key => match accounts.row key with
    | some account => if account.user.isDeleted then .error missing else .ok (key,account)
    | none => .error missing

def readLogin (choice : Choice T) (accounts : Table Account) (request : Request T) (phoneNumber password : String) :
    Except RpcError (Request T) :=
  let found := accounts.select fun _ account => account.user.phoneNumber == phoneNumber && !account.user.isDeleted
  match found[choice.pick % found.length]? with
  | none => .error invalidCredentials
  | some (key,account) =>
    if account.user.status ≠ .active then .error invalidCredentials
    else if tokens.compare password account.user.password then .ok {request with key,account,stage:=.store}
    else .error invalidCredentials
def readRefresh (choice : Choice T) (accounts : Table Account) (request : Request T) (token : T) : Except RpcError (Request T) :=
  if choice.verifies = false then .error invalidToken
  else do
    let (key,account) ← findAccount reader (tokens.sub token) accounts invalidToken
    if account.user.username ≠ tokens.username token ∨ account.user.status ≠ .active then .error invalidToken
    else match account.refreshToken.filter (· ≠ "") with
      | none => .error invalidToken
      | some stored =>
        -- A valid signature on another token than the stored one ends the session.
        if stored ≠ tokens.hash token then .ok {request with key,account,stage:=.save}
        else .ok {request with key,account,stage:=.done (.ok none)}
def readLogout (accounts : Table Account) (request : Request T) (userId : String) : Except RpcError (Request T) := do
  let (key,account) ← findAccount reader userId accounts (unauthorized "User not found")
  .ok {request with key,account,stage:=.save}
def readChange (accounts : Table Account) (request : Request T) (env : Users.Env) (requester : Option RequesterContext) (call : Call) :
    Except RpcError (Request T) := do
  let (key,account) ← findAccount reader call.id accounts (notFound "User topilmadi")
  assertRequesterCanMutateUser requester call.id account.user.role
  match call with
  | .update _ _ => .ok {request with key,account,stage:=.phone}
  | .setStatus _ _ => .ok {request with key,account,stage:=.save}
  | .delete _ =>
    if account.user.role = .superadmin then .error (badRequest "Superadminni o‘chirib bo‘lmaydi")
    else if account.user.role = .market ∧ env.productsDeleted = false then
      .error ⟨502,"Marketga tegishli productlarni o‘chirishda xatolik"⟩
    else .ok {request with key,account,stage:=.save}
def readSettings (accounts : Table Account) (request : Request T) (id : String) : Except RpcError (Request T) := do
  let (key,account) ← findAccount reader id accounts (notFound "User topilmadi")
  .ok {request with key,account,stage:=.save}
def read (choice : Choice T) (accounts : Table Account) (request : Request T) : Except RpcError (Request T) :=
  match request.ask with
  | .login phoneNumber password => readLogin tokens choice accounts request phoneNumber password
  | .refresh token => readRefresh reader tokens choice accounts request token
  | .logout userId => readLogout reader accounts request userId
  | .change env requester call => readChange reader accounts request env requester call
  | .settings id _ => readSettings reader accounts request id
def checkPhone (accounts : Table Account) (request : Request T) : Except RpcError (Request T) :=
  match request.ask with
  | .change _ _ (.update id dto) =>
    if phoneTaken id dto request.account.user (accounts.map fun entry => (entry.1,entry.2.user)) then
      .error ⟨409,"Bu telefon raqam allaqachon mavjud"⟩
    else .ok {request with stage:=.save}
  | _ => .ok {request with stage:=.save}

-- The entity a save stores: the row as it was loaded, with the request's own fields changed.
def edited (account : Account) : Ask T → Account
  | .login _ _ => account
  | .refresh _ => {account with refreshToken:=none}
  | .logout _ => {account with refreshToken:=none}
  | .change env requester call => {account with user:=call.edit env requester account.user}
  | .settings _ settings => {account with settings}
def entry : Ask T → Option (Entry T)
  | .refresh _ => some .reuse
  | .logout _ => some .logout
  | _ => none
def saved (choice : Choice T) (request : Request T) : Option Account :=
  let account := edited request.account request.ask
  if choice.goes && account.user.name.isSome && account.user.salary.isSome && account.user.addOrder.isSome then some account else none
def afterSave : Ask T → Except RpcError (Option T)
  | .refresh _ => .error invalidToken
  | _ => .ok none

def next (_who : Nat) (choice : Choice T) (store : Store T) (request : Request T) : Store T × Request T :=
  match request.stage with
  | .read => (store,if choice.goes then proceed request (read reader tokens choice store.accounts request) else request.ends (.error internal))
  | .phone => (store,if choice.goes then proceed request (checkPhone store.accounts request) else request.ends (.error internal))
  | .store => match choice.signed with
    -- The token is the one column a login writes.
    | some token => if choice.goes then
        (⟨(Write.update request.key fun account => {account with refreshToken:=some (tokens.hash token)}).apply store.accounts,
          store.log ++ [(request.key,.login token)]⟩,request.ends (.ok (some token)))
      else (store,request.ends (.error internal))
    | none => (store,request.ends (.error internal))
  | .save => match saved choice request with
    | some account => (⟨store.accounts.put request.key account,store.log ++ ((entry request.ask).map fun entry => (request.key,entry)).toList⟩,
        request.ends (afterSave request.ask))
    | none => (store,request.ends (.error internal))
  | .done _ => (store,request)
def blank : Account :=
  ⟨⟨none,"",none,"",none,none,.customer,.inactive,none,none,none,none,none,none,true⟩,none,none⟩
def sessions : System (Store T) (Request T) (Ask T) (Choice T) Unit :=
  ⟨fun ask => ⟨ask,0,blank,.read⟩,next reader tokens,fun _ store => store⟩

end Service

-- The latest login of a user that no logout and no reuse detection has followed.
def session (log : List (Nat × Entry T)) (key : Nat) : Option T :=
  log.foldl (fun current row => if row.1 = key then match row.2 with
    | .login token => some token
    | .logout => none
    | .reuse => none
  else current) none
def issued (log : List (Nat × Entry T)) : List T :=
  log.filterMap fun row => match row.2 with
    | .login token => some token
    | _ => none
-- Only the token of the current session is stored.
def Current (tokens : Tokens T) (store : Store T) : Prop :=
  ∀ key account stored,store.accounts.row key = some account → account.refreshToken = some stored →
    ∃ token,session store.log key = some token ∧ tokens.hash token = stored
-- A save that stores a token finds its session still current.
def Steady (tokens : Tokens T) (m : Machine (Store T) (Request T)) : Turn (Ask T) (Choice T) Unit → Prop
  | .step who choice => ∀ request : Request T,m.workers[who]? = some request → request.stage matches .save →
      ∀ account stored,saved choice request = some account → account.refreshToken = some stored →
        ∃ token,session m.shared.log request.key = some token ∧ tokens.hash token = stored
  | _ => True

section History

theorem session_login (log : List (Nat × Entry T)) (key other : Nat) (token : T) :
    session (log ++ [(key,.login token)]) other = if key = other then some token else session log other := by
  simp [session]
theorem session_other (log : List (Nat × Entry T)) {key other : Nat} (apart : key ≠ other) (entry : Option (Entry T)) :
    session (log ++ (entry.map fun entry => (key,entry)).toList) other = session log other := by
  cases entry with
  | none => simp
  | some entry => simp [session,apart]
-- A session that is over does not come back without a login of its own.
theorem session_stays {log more : List (Nat × Entry T)} {key : Nat} {token : T} (ended : session log key ≠ some token)
    (absent : token ∉ issued more) : session (log ++ more) key ≠ some token := by
  induction more using List.reverseRecOn with
  | nil => simpa using ended
  | append_singleton more row ih =>
    obtain ⟨owner,entry⟩ := row
    have before := ih fun member => absent (by simpa [issued] using .inl (by simpa [issued] using member))
    rw [←List.append_assoc]
    unfold session at before ⊢
    rw [List.foldl_append]
    simp only [List.foldl_cons,List.foldl_nil]
    split
    · cases entry with
      | login other =>
        have apart : token ≠ other := fun same => absent (by simp [issued,same])
        exact fun same => apart (Option.some.inj same).symm
      | logout => exact nofun
      | reuse => exact nofun
    · exact before

end History

section Turns
variable {reader : IdReader} {tokens : Tokens T}

theorem update_row {accounts : Table Account} {key other : Nat} {save : Account → Account}
    (found : ((Write.update key save).apply accounts).row other = some account) :
    (key = other ∧ ∃ old,accounts.row key = some old ∧ account = save old) ∨ (key ≠ other ∧ accounts.row other = some account) := by
  unfold Write.apply at found
  cases here : accounts.row key with
  | none =>
    simp only [Write.result,Write.key,here,Option.map_none] at found
    refine .inr ⟨fun same => ?_,found⟩
    rw [←same,here] at found
    cases found
  | some old =>
    simp only [Write.result,Write.key,here,Option.map_some] at found
    rw [row_put] at found
    split at found
    · rename_i same
      exact .inl ⟨same,old,rfl,(Option.some.inj found).symm⟩
    · rename_i apart
      exact .inr ⟨apart,found⟩

theorem current_login {store : Store T} (current : Current tokens store) (key : Nat) (token : T) :
    Current tokens ⟨(Write.update key fun account => {account with refreshToken:=some (tokens.hash token)}).apply store.accounts,
      store.log ++ [(key,.login token)]⟩ := by
  intro other account stored found holds
  rw [session_login]
  rcases update_row found with ⟨same,old,-,rfl⟩ | ⟨apart,kept⟩
  · exact ⟨token,if_pos same,Option.some.inj holds⟩
  · rw [if_neg apart]
    exact current other account stored kept holds
-- Only a request that keeps the loaded token stores one.
theorem edited_entry {account : Account} {ask : Ask T} (holds : (edited account ask).refreshToken = some stored) : entry ask = none := by
  cases ask with
  | refresh token => cases holds
  | logout userId => cases holds
  | login phoneNumber password => rfl
  | change env requester call => rfl
  | settings id settings => rfl
theorem saved_edited {choice : Choice T} {request : Request T} (stores : saved choice request = some account) :
    account = edited request.account request.ask := by
  unfold saved at stores
  dsimp only at stores
  split at stores
  · exact (Option.some.inj stores).symm
  · cases stores
theorem current_save {store : Store T} (current : Current tokens store) {choice : Choice T} {request : Request T}
    (stores : saved choice request = some account) :
    Current tokens ⟨store.accounts.put request.key account,
      store.log ++ ((entry request.ask).map fun entry => (request.key,entry)).toList⟩ ↔
    ∀ stored,account.refreshToken = some stored → ∃ token,session store.log request.key = some token ∧ tokens.hash token = stored := by
  have same : ∀ {stored : String},account.refreshToken = some stored → entry request.ask = none := fun holds =>
    edited_entry (saved_edited stores ▸ holds)
  constructor
  · intro after stored holds
    have here := after request.key account stored (by rw [row_put,if_pos rfl]) holds
    rw [same holds] at here
    simpa using here
  · intro kept key other stored found holds
    dsimp only at found ⊢
    rw [row_put] at found
    split at found
    · rename_i own
      subst own
      cases found
      rw [same holds]
      simpa using kept stored holds
    · rename_i apart
      rw [session_other _ apart]
      exact current key other stored found holds

-- One turn keeps the stored tokens current exactly when it is steady.
theorem turn_exact {m : Machine (Store T) (Request T)} (current : Current tokens m.shared) (turn : Turn (Ask T) (Choice T) Unit) :
    Current tokens ((sessions reader tokens).advance m turn).shared ↔ Steady tokens m turn := by
  cases turn with
  | arrive ask => exact iff_of_true current trivial
  | world event => exact iff_of_true current trivial
  | step who choice =>
    cases here : m.workers[who]? with
    | none =>
      rw [idle_step here]
      exact iff_of_true current fun request there => by rw [here] at there; cases there
    | some request =>
      have only : Steady tokens m (.step who choice) ↔ (request.stage matches .save → ∀ account stored,saved choice request = some account →
          account.refreshToken = some stored → ∃ token,session m.shared.log request.key = some token ∧ tokens.hash token = stored) := by
        simp only [Steady,here]
        exact ⟨fun each => each request rfl,fun steady other same => Option.some.inj same ▸ steady⟩
      rw [shared_step here,only]
      show Current tokens (next reader tokens who choice m.shared request).1 ↔ _
      cases stage : request.stage with
      | read => simpa [next,stage] using current
      | phone => simpa [next,stage] using current
      | done reply => simpa [next,stage] using current
      | store =>
        cases signed : choice.signed with
        | none => simpa [next,stage,signed] using current
        | some token =>
          have after := current_login current request.key token
          cases goes : choice.goes with
          | true => simpa [next,stage,signed,goes] using after
          | false => simpa [next,stage,signed,goes] using current
      | save =>
        cases stores : saved choice request with
        | none => simpa [next,stage,stores] using current
        | some account =>
          simp only [next,stage,stores,forall_const,Option.some.injEq]
          exact (current_save current stores).trans ⟨fun each other stored same => same ▸ each stored,fun each stored => each account stored rfl⟩

theorem next_log (who : Nat) (choice : Choice T) (store : Store T) (request : Request T) :
    store.log <+: (next reader tokens who choice store request).1.log := by
  unfold next
  split
  · exact List.prefix_rfl
  · exact List.prefix_rfl
  · split
    · split
      · exact List.prefix_append _ _
      · exact List.prefix_rfl
    · exact List.prefix_rfl
  · split
    · exact List.prefix_append _ _
    · exact List.prefix_rfl
  · exact List.prefix_rfl
theorem advance_log (m : Machine (Store T) (Request T)) (turn : Turn (Ask T) (Choice T) Unit) :
    m.shared.log <+: ((sessions reader tokens).advance m turn).shared.log := by
  cases turn with
  | arrive ask => exact List.prefix_rfl
  | world event => exact List.prefix_rfl
  | step who choice =>
    cases here : m.workers[who]? with
    | none =>
      have idle : (sessions reader tokens).advance m (.step who choice) = m := idle_step here choice
      exact idle.symm ▸ List.prefix_rfl
    | some request =>
      rw [shared_step here]
      exact next_log who choice m.shared request
theorem run_log (m : Machine (Store T) (Request T)) (turns : List (Turn (Ask T) (Choice T) Unit)) :
    m.shared.log <+: (Runs.runFrom (sessions reader tokens).advance m turns).shared.log := by
  induction turns generalizing m with
  | nil => exact List.prefix_rfl
  | cons turn rest ih => exact (advance_log m turn).trans (ih _)

-- A refresh that succeeds has presented the hash it finds in the row its token names.
theorem refresh_found {choice : Choice T} {accounts : Table Account} {request after : Request T} {token : T}
    (went : readRefresh reader tokens choice accounts request token = .ok after) (granted : after.stage = .done (.ok reply)) :
    ∃ key account,reader.read (tokens.sub token) = some key ∧ accounts.row key = some account ∧
      account.refreshToken = some (tokens.hash token) := by
  unfold readRefresh at went
  split at went
  · cases went
  obtain ⟨⟨key,account⟩,found,rest⟩ := error_bind_parts (show Except.bind _ _ = _ from went)
  have row : reader.read (tokens.sub token) = some key ∧ accounts.row key = some account := by
    unfold findAccount at found
    split at found
    · cases found
    · rename_i named
      split at found
      · rename_i stored
        split at found
        · cases found
        · cases found
          exact ⟨named,stored⟩
      · cases found
  refine ⟨key,account,row.1,row.2,?_⟩
  dsimp only at rest
  split at rest
  · cases rest
  · split at rest
    · cases rest
    · rename_i stored kept
      split at rest
      · cases rest
        cases granted
      · rename_i same
        have holds := (Option.filter_eq_some_iff.mp kept).1
        rw [holds,not_not.mp same]

end Turns

abbrev AuthTurn (T : Type) := Interleaving.Turn (Ask T) (Choice T) Unit

-- The stored tokens are those of the current sessions in every state, exactly when no save brings
-- back a token that is over. Then a refresh goes through for no other token, and what is over
-- stays over.
theorem sessions_end_exact (reader : IdReader) (tokens : Tokens T) (store : Store T) (turns : List (AuthTurn T)) (current : Current tokens store) :
    (Runs.Meets (sessions reader tokens).advance (Steady tokens) ⟨store,[]⟩ turns ↔
      ∀ front,front <+: turns → Current tokens ((sessions reader tokens).run store front).shared) ∧
    (Runs.Meets (sessions reader tokens).advance (Steady tokens) ⟨store,[]⟩ turns →
      (∀ (front : List (AuthTurn T)) (who : Nat) (choice : Choice T) (request after : Request T) (token : T) (reply : Option T),
        front ++ [.step who choice] <+: turns → ((sessions reader tokens).run store front).workers[who]? = some request →
        request.ask = .refresh token → request.stage = .read →
        ((sessions reader tokens).run store (front ++ [.step who choice])).workers[who]? = some after → after.stage = .done (.ok reply) →
        ∃ key,reader.read (tokens.sub token) = some key ∧ session ((sessions reader tokens).run store front).shared.log key = some token) ∧
      ((issued ((sessions reader tokens).run store turns).shared.log).Nodup → ∀ (front : List (AuthTurn T)) (key : Nat) (token : T),
        front <+: turns → (key,.login token) ∈ ((sessions reader tokens).run store front).shared.log →
        session ((sessions reader tokens).run store front).shared.log key ≠ some token →
        ∀ account,((sessions reader tokens).run store turns).shared.accounts.row key = some account →
          account.refreshToken ≠ some (tokens.hash token))) := by
  have exact_ : Runs.Meets (sessions reader tokens).advance (Steady tokens) ⟨store,[]⟩ turns ↔
      ∀ front,front <+: turns → Current tokens ((sessions reader tokens).run store front).shared :=
    Runs.meets_exactly (P:=fun m : Machine (Store T) (Request T) => Current tokens m.shared) (Q:=fun m => Current tokens m.shared)
      (fun _ turn current steady => (turn_exact current turn).mpr steady) (fun _ current => current)
      (fun _ turn current unsteady after => unsteady ((turn_exact current turn).mp after)) current
  refine ⟨exact_,fun meets => ⟨?_,?_⟩⟩
  · intro front who choice request after token reply reached here ask stage there granted
    have kept := exact_.mp meets front ((List.prefix_append _ _).trans reached)
    have stepped : after = (next reader tokens who choice ((sessions reader tokens).run store front).shared request).2 := by
      rw [run_snoc,look_step here,if_pos rfl] at there
      exact (Option.some.inj there).symm
    subst stepped
    simp only [next,stage] at granted
    split at granted
    · cases went : read reader tokens choice ((sessions reader tokens).run store front).shared.accounts request with
      | error error => simp [went,proceed,Request.ends] at granted
      | ok result =>
        simp only [went,proceed] at granted
        simp only [read,ask] at went
        obtain ⟨key,account,named,row,holds⟩ := refresh_found went granted
        obtain ⟨other,live,same⟩ := kept key account _ row holds
        exact ⟨key,named,tokens.injective _ _ same ▸ live⟩
    · simp [Request.ends] at granted
  · intro distinct front key token reached login ended account row holds
    have kept := exact_.mp meets turns List.prefix_rfl
    obtain ⟨live,now,same⟩ := kept key account _ row holds
    cases tokens.injective _ _ same
    obtain ⟨rest,rfl⟩ := reached
    have grown : ((sessions reader tokens).run store front).shared.log <+: ((sessions reader tokens).run store (front ++ rest)).shared.log := by
      unfold System.run
      rw [Runs.runFrom_append]
      exact run_log _ rest
    obtain ⟨more,split⟩ := grown
    rw [←split] at now distinct
    have absent : token ∉ issued more := by
      intro again
      unfold issued at distinct again
      rw [List.filterMap_append] at distinct
      exact (List.nodup_append.mp distinct).2.2 token (List.mem_filterMap.mpr ⟨_,login,rfl⟩) token again rfl
    exact session_stays ended absent now

-- A settings save that was loaded before a logout and stored after it.
def oneUser : User :=
  ⟨some "Operator","+998901112233",some "op","secret",some 0,none,.operator,.active,none,none,some false,none,none,none,false⟩
def plainTokens : Tokens String := ⟨fun _ => "7",fun _ => some "op",id,fun _ _ same => same,(· == ·)⟩
def oneAccount : Store String := ⟨[(7,⟨oneUser,none,none⟩)],[]⟩
def staleSave : List (AuthTurn String) :=
  [.arrive (.login "+998901112233" "secret"),.step 0 {},.step 0 {signed:=some "first"},.arrive (.settings "7" (some "dark")),.step 1 {},
    .arrive (.logout "7"),.step 2 {},.step 2 {},.step 1 {},.arrive (.refresh "first"),.step 3 {}]

theorem one_current : Current plainTokens oneAccount := by
  intro key account stored found holds
  have keyed : oneAccount.accounts.Keyed := by decide
  have entry := (row_exact keyed).mpr found
  cases List.mem_singleton.mp entry
  cases holds
-- A login and a refresh that stands alone.
def plainRefresh : List (AuthTurn String) :=
  [.arrive (.login "+998901112233" "secret"),.step 0 {},.step 0 {signed:=some "first"},.arrive (.refresh "first"),.step 1 {}]
theorem steady_reads {m : Machine (Store T) (Request T)} {choice : Choice T}
    (reads : (m.workers[who]?.map fun request => request.stage matches .save) ≠ some true) : Steady tokens m (.step who choice) := by
  intro request here saves
  rw [here] at reads
  exact absurd (congrArg some saves) reads
theorem sessions_end_exact_one :
    Current plainTokens oneAccount ∧
    (issued ((sessions decimalReader plainTokens).run oneAccount plainRefresh).shared.log).Nodup ∧
    ∃ key,decimalReader.read "7" = some key ∧
      session ((sessions decimalReader plainTokens).run oneAccount (plainRefresh.take 4)).shared.log key = some "first" := by
  have exact_ := sessions_end_exact decimalReader plainTokens oneAccount plainRefresh one_current
  have meets : Runs.Meets (sessions decimalReader plainTokens).advance (Steady plainTokens) ⟨oneAccount,[]⟩ plainRefresh := by
    refine ⟨trivial,steady_reads ?_,steady_reads ?_,trivial,steady_reads ?_,trivial⟩
    · decide
    · decide
    · decide
  refine ⟨one_current,by decide,?_⟩
  exact (exact_.2 meets).1 (plainRefresh.take 4) 1 {} ⟨.refresh "first",0,blank,.read⟩
    ⟨.refresh "first",7,⟨oneUser,none,some "first"⟩,.done (.ok none)⟩ "first" none List.prefix_rfl rfl rfl rfl rfl rfl
theorem stale_save_revives :
    (((sessions decimalReader plainTokens).run oneAccount staleSave).shared.log = [(7,.login "first"),(7,.logout)]) ∧
    session ((sessions decimalReader plainTokens).run oneAccount staleSave).shared.log 7 = none ∧
    (((sessions decimalReader plainTokens).run oneAccount staleSave).workers[3]?.map fun request =>
      match request.stage with
      | .done (.ok _) => true
      | _ => false) = some true := by
  refine ⟨?_,?_,?_⟩
  · decide
  · decide
  · decide

end Elchi.Auth
