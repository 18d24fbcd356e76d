import Elchi.OutboundRequests
namespace Elchi.Outbound
open Credentials (Cipher Keyring)

-- What every session it runs from keeps, an operation keeps.
section Rules
variable {α β : Type} {P : Session → Prop}

def Keeps (P : Session → Prop) (op : Service α) : Prop := ∀ s,P s → P (op s).2
theorem keeps_pure (value : α) : Keeps P (pure value : Service α) := fun _ held => held
theorem keeps_fail (error : RpcError) : Keeps P (fail error : Service α) := fun _ held => held
theorem keeps_bind {op : Service α} {next : α → Service β} (first : Keeps P op) (later : ∀ value,Keeps P (next value)) : Keeps P (op >>= next) := by
  intro s held
  have after := first s held
  cases ran : op s with
  | mk result middle =>
    rw [ran] at after
    simp only [bind,ran]
    cases result with
    | ok value => exact later value middle after
    | error error => exact after
theorem keeps_check {result : Except RpcError α} {next : α → Service β} (later : ∀ value,result = .ok value → Keeps P (next value)) :
    Keeps P (check result >>= next) := by
  cases result with
  | ok value => exact later value rfl
  | error error => exact fun _ held => held

end Rules

-- Each call fetches a URL the guard has let through, and follows what the servers answer with.
def Sound (net : Net) (remote : Nat → Chain) (s : Session) : Prop :=
  ∀ n call,s.calls[n]? = some call → (net.allowPrivate = false → Public net call.url) ∧ call.redirects = followed net (remote n).redirects

section Operations
variable {K : Type} {env : Env K} {remote : Nat → Chain}

theorem keeps_tokens (id : Nat) (token : Option Token) : Keeps (Sound env.net remote) (keepToken id token) := fun _ sound => sound
theorem keeps_cached (id : Nat) : Keeps (Sound env.net remote) (cachedToken env id) := fun _ sound => sound
theorem keeps_fetch {url : String} (passed : assertOutboundUrlSafe env.net url = .ok ()) :
    Keeps (Sound env.net remote) (fetch env.net remote url) := by
  intro s sound
  have free : env.net.allowPrivate = false → Public env.net url := fun strict => by
    refine guard_public strict ?_
    unfold assertOutboundUrlSafe at passed
    split at passed
    · assumption
    · cases passed
  unfold fetch
  split
  · intro n call here
    simp only [List.getElem?_append,List.getElem?_singleton] at here
    split at here
    · exact sound n call here
    · split at here
      · rename_i beyond last
        cases here
        have same : n = s.calls.length := by omega
        exact ⟨free,same ▸ rfl⟩
      · cases here
  · exact sound

theorem login_keeps (integration : Integration) : Keeps (Sound env.net remote) (loginAndGetToken env remote integration) := by
  unfold loginAndGetToken
  split
  · refine keeps_check fun _ passed => keeps_bind (keeps_fetch passed) fun ended => ?_
    cases ended with
    | broken message => exact keeps_fail _
    | response status statusText text =>
      dsimp only
      split
      · exact keeps_fail _
      · split
        · exact keeps_fail _
        · split
          · exact keeps_fail _
          · exact keeps_bind (keeps_tokens _ _) fun _ => keeps_pure _
  · exact keeps_fail _
theorem authorize_keeps (integration : Integration) (useAuth : Option Bool) :
    Keeps (Sound env.net remote) (authorize env remote integration useAuth) := by
  unfold authorize getValidToken
  split
  · split
    · exact keeps_pure _
    · refine keeps_bind (keeps_cached _) fun cached => ?_
      cases cached with
      | some token => exact keeps_pure _
      | none => exact keeps_bind (login_keeps integration) fun _ => keeps_pure _
  · exact keeps_pure _
theorem execute_keeps (input : ExternalRequestInput) : Keeps (Sound env.net remote) (executeExternalRequest env remote input) := by
  unfold executeExternalRequest
  refine keeps_check fun integration _ => keeps_check fun url _ => keeps_bind (authorize_keeps _ _) fun _ => ?_
  refine keeps_check fun _ passed => keeps_bind (keeps_fetch passed) fun ended => ?_
  cases ended with
  | broken message => exact keeps_fail _
  | response status statusText text =>
    dsimp only
    split
    · split
      · exact keeps_bind (keeps_tokens _ _) fun _ => keeps_fail _
      · exact keeps_fail _
    · exact keeps_pure _
theorem healthcheck_keeps (input : HealthcheckInput) : Keeps (Sound env.net remote) (healthcheckIntegration env remote input) := by
  unfold healthcheckIntegration
  dsimp only
  split
  · exact keeps_fail _
  · refine keeps_check fun url _ => keeps_bind (authorize_keeps _ _) fun _ => keeps_check fun _ passed => keeps_bind (keeps_fetch passed) fun ended => ?_
    cases ended with
    | broken message => exact keeps_pure _
    | response status statusText text => exact keeps_pure _

end Operations

-- Every operation of the service that reaches the outside.
inductive Operation where
  | external (input : ExternalRequestInput)
  | healthcheck (input : HealthcheckInput)
def Operation.calls {K : Type} (env : Env K) (remote : Nat → Chain) (tokens : Nat → Option Token) : Operation → List FetchCall
  | .external input => (executeExternalRequest env remote input ⟨[],tokens⟩).2.calls
  | .healthcheck input => (healthcheckIntegration env remote input ⟨[],tokens⟩).2.calls
def FetchCall.hops (call : FetchCall) : List String := call.url :: call.redirects

-- Every host a request is sent to is public exactly when the servers redirect to public hosts only,
-- and with the escape hatch open the configured URLs are public themselves.
theorem hops_public {K : Type} (env : Env K) (remote : Nat → Chain) (tokens : Nat → Option Token) (operation : Operation) :
    (∀ call ∈ operation.calls env remote tokens,∀ url ∈ call.hops,Public env.net url) ↔
      ∀ n call,(operation.calls env remote tokens)[n]? = some call →
        (env.net.allowPrivate = true → Public env.net call.url) ∧ ∀ target ∈ followed env.net (remote n).redirects,Public env.net target := by
  have none : Sound env.net remote ⟨[],tokens⟩ := fun n call here => by simp at here
  have sound : ∀ n call,(operation.calls env remote tokens)[n]? = some call →
      (env.net.allowPrivate = false → Public env.net call.url) ∧ call.redirects = followed env.net (remote n).redirects := by
    cases operation with
    | external input => exact execute_keeps input _ none
    | healthcheck input => exact healthcheck_keeps input _ none
  constructor
  · intro every n call here
    have each := every call (List.mem_of_getElem? here)
    refine ⟨fun _ => each call.url List.mem_cons_self,fun target member => each target (.tail _ ?_)⟩
    rw [(sound n call here).2]
    exact member
  · intro contained call member url hop
    obtain ⟨n,here⟩ := List.getElem?_of_mem member
    obtain ⟨strict,redirects⟩ := sound n call here
    obtain ⟨escaped,targets⟩ := contained n call here
    obtain same | redirected := List.mem_cons.mp hop
    · rw [same]
      cases allowed : env.net.allowPrivate with
      | true => exact escaped allowed
      | false => exact strict allowed
    · rw [redirects] at redirected
      exact targets url redirected

-- A carrier on a public address redirects a request to the metadata service of the cloud.
def carrierNet : Net where
  parseUrl text := if text = "https://api.carrier.uz/orders/status" then some ⟨"https:","api.carrier.uz"⟩
    else if text = "http://169.254.169.254/latest/meta-data" then some ⟨"http:","169.254.169.254"⟩ else none
  lookup host := if host = "api.carrier.uz" then some ["93.184.216.34"] else none
  allowPrivate := false
def noCipher : Cipher Unit where
  encrypt _ _ plain := 0 :: plain
  decrypt _ _ encrypted := encrypted.tail?
  inverts _ _ _ _ := rfl
  padded _ _ _ := List.cons_ne_nil _ _
def carrierEnv : Env Unit where
  net := carrierNet
  cipher := noCipher
  keys := ⟨(),none⟩
  integrations := [⟨4,"carrier","Carrier",true,false,"https://api.carrier.uz",.apiKey,none,none,none,none,none⟩]
  searchParams _ := ""
  parse _ := .ok .null
  now := 0
def redirected : Nat → Chain := fun _ => ⟨["http://169.254.169.254/latest/meta-data"],.response 200 "OK" "{}"⟩
def statusUpdate : Operation := .external ⟨"carrier",some "/orders/status",[],some true,none⟩
theorem metadata_reached :
    statusUpdate.calls carrierEnv redirected (fun _ => none) =
      [⟨"https://api.carrier.uz/orders/status",["http://169.254.169.254/latest/meta-data"]⟩] ∧
    isBlockedAddress "169.254.169.254" = true ∧
    ¬ ∀ call ∈ statusUpdate.calls carrierEnv redirected (fun _ => none),∀ url ∈ call.hops,Public carrierNet url := by
  have calls : statusUpdate.calls carrierEnv redirected (fun _ => none) =
      [⟨"https://api.carrier.uz/orders/status",["http://169.254.169.254/latest/meta-data"]⟩] := by decide
  have blocked : isBlockedAddress "169.254.169.254" = true := by decide
  refine ⟨calls,blocked,fun every => ?_⟩
  rw [calls] at every
  have hop := every _ List.mem_cons_self "http://169.254.169.254/latest/meta-data" (.tail _ List.mem_cons_self)
  have free := hop ⟨"http:","169.254.169.254"⟩ (by decide) "169.254.169.254" (by decide)
  exact Bool.false_ne_true (free.symm.trans blocked)

end Elchi.Outbound
