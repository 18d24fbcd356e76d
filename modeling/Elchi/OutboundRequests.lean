import Elchi.OutboundGuard
import Elchi.Credentials
namespace Elchi.Outbound
open Webhooks (Json extractPath truthy)
open Credentials (Cipher Keyring decryptCredential)

-- What the remote servers do with one fetch: the redirects they answer with, and how it ends.
inductive FetchEnd where
  | response (status : Nat) (statusText text : String)
  | broken (message : String)
deriving DecidableEq, Repr
structure Chain where
  redirects : List String
  final : FetchEnd
structure FetchCall where
  url : String
  redirects : List String
deriving DecidableEq, Repr
structure Token where
  token : String
  expiresAt : Nat
deriving DecidableEq, Repr
-- The requests of an operation so far, and the token cache.
structure Session where
  calls : List FetchCall
  tokens : Nat → Option Token
def Service (α : Type) := Session → Except RpcError α × Session
instance : Monad Service where
  pure value := fun s => (.ok value,s)
  bind op next := fun s => match op s with
    | (.ok value,after) => next value after
    | (.error error,after) => (.error error,after)
def fail {α : Type} (error : RpcError) : Service α := fun s => (.error error,s)
def check {α : Type} (result : Except RpcError α) : Service α := fun s => (result,s)

-- String(value)
mutual
def jsString : Json → String
  | .null => "null"
  | .bool value => if value then "true" else "false"
  | .num shown => shown
  | .str text => text
  | .arr items => ",".intercalate (jsStrings items)
  | .obj _ => "[object Object]"
def jsStrings : List Json → List String
  | [] => []
  | .null :: rest => "" :: jsStrings rest
  | item :: rest => jsString item :: jsStrings rest
end

inductive AuthType where
  | apiKey | login
deriving DecidableEq, Repr
-- An external integration as the requests to it use it.
structure Integration where
  id : Nat
  slug : String
  name : String
  isActive : Bool
  isDeleted : Bool
  apiUrl : String
  authType : AuthType
  authUrl : Option String
  username : Option String
  password : Option String
  apiKey : Option String
  tokenPath : Option String
deriving DecidableEq, Repr
structure ExternalRequestInput where
  slug : String
  endpoint : Option String
  params : List (String × Option String)
  useAuth : Option Bool
  responsePath : Option String
structure HealthcheckInput where
  id : Option Nat
  slug : Option String
  endpoint : Option String
  useAuth : Option Bool
structure ExternalResult where
  integration : Nat × String × String
  url : String
  raw : Json
  data : Option Json
structure HealthResult where
  ok : Bool
  statusCode : Nat
  url : String
deriving DecidableEq, Repr

-- The stored integrations, the credential keys, and URLSearchParams and JSON.parse of the platform.
structure Env (K : Type) where
  net : Net
  cipher : Cipher K
  keys : Keyring K
  integrations : List Integration
  searchParams : List (String × String) → String
  parse : String → Except String Json
  now : Nat

-- fetch follows up to twenty redirects, to web URLs only.
def redirectLimit : Nat := 20
def isWeb (net : Net) (url : String) : Bool := (net.parseUrl url).any Url.web
def followed (net : Net) (redirects : List String) : List String := (redirects.take redirectLimit).takeWhile (isWeb net)
def fetch (net : Net) (remote : Nat → Chain) (url : String) : Service FetchEnd := fun s =>
  if isWeb net url then
    let chain := remote s.calls.length
    let redirects := followed net chain.redirects
    (.ok (if redirects.length = chain.redirects.length then chain.final else .broken "fetch failed"),
      {s with calls:=s.calls ++ [⟨url,redirects⟩]})
  else (.ok (.broken "fetch failed"),s)

section Requests
variable {K : Type} (env : Env K) (remote : Nat → Chain)

def findActiveBySlug (slug : String) : Except RpcError Integration :=
  match env.integrations.find? fun integration => integration.slug == slug && integration.isActive && !integration.isDeleted with
  | some integration => .ok integration
  | none => .error (notFound s!"Active integration not found for slug: {slug}")
def buildExternalUrl (baseUrl : String) (endpoint : Option String) : Except RpcError String :=
  match endpoint.filter fun text => !(jsTrim text).isEmpty with
  | none => .error (badRequest "External endpoint is required")
  | some endpoint =>
    if "http://".toList.isPrefixOf endpoint.toList || "https://".toList.isPrefixOf endpoint.toList then .ok endpoint
    else .ok (String.ofList ((baseUrl.toList.reverse.dropWhile (· == '/')).reverse ++ '/' :: endpoint.toList.dropWhile (· == '/')))

def resolveTokenFromResponse (response : Json) (tokenPath : Option String) : Option String :=
  (((truthy tokenPath).toList ++ ["access_token","token","data.access_token","data.token","result.access_token","result.token"]).findSome?
    fun path => match extractPath response path with
      | some (.str text) => truthy (some text)
      | _ => none)
def keepToken (id : Nat) (token : Option Token) : Service Unit := fun s => (.ok (),{s with tokens:=fun other => if other = id then token else s.tokens other})
def cachedToken (id : Nat) : Service (Option String) := fun s =>
  (.ok (((s.tokens id).filter fun token => env.now < token.expiresAt).map (·.token)),s)

-- A response that is not ok is thrown inside the block whose errors are wrapped once more.
def loginAndGetToken (integration : Integration) : Service String := do
  match truthy integration.authUrl,truthy integration.username,truthy (decryptCredential env.cipher env.keys integration.password) with
  | some authUrl,some _,some _ =>
    check (assertOutboundUrlSafe env.net authUrl)
    let wrapped := fun message : String => badRequest s!"Integration login failed: {message}"
    match ← fetch env.net remote authUrl with
    | .broken message => fail (wrapped message)
    | .response status statusText text =>
      if status < 200 || 299 < status then fail (wrapped s!"Integration login failed: {if text.isEmpty then statusText else text}")
      else match env.parse text with
        | .error message => fail (wrapped message)
        | .ok response => match resolveTokenFromResponse response integration.tokenPath with
          | none => fail (wrapped "Token could not be extracted from auth response")
          | some token => do
            keepToken integration.id (some ⟨token,env.now+55*60*1000⟩)
            pure token
  | _,_,_ => fail (badRequest "Integration login config is incomplete")
def getValidToken (integration : Integration) : Service (Option String) := do
  match integration.authType with
  | .apiKey => pure (decryptCredential env.cipher env.keys integration.apiKey)
  | .login => match ← cachedToken env integration.id with
    | some token => pure (some token)
    | none => do
      let token ← loginAndGetToken env remote integration
      pure (some token)
def authorize (integration : Integration) (useAuth : Option Bool) : Service (Option String) :=
  if useAuth.getD true then getValidToken env remote integration else pure none

def readBody (text : String) : Json :=
  if (jsTrim text).isEmpty then .null
  else match env.parse text with
    | .ok value => value
    | .error _ => .str text
def failureMessage (status : Nat) : Json → String
  | .obj fields => ((Json.get "message" (.obj fields)).map jsString).getD s!"External request failed with status {status}"
  | _ => s!"External request failed with status {status}"
def executeExternalRequest (input : ExternalRequestInput) : Service ExternalResult := do
  let integration ← check (findActiveBySlug env input.slug)
  let url ← check (buildExternalUrl integration.apiUrl input.endpoint)
  let _ ← authorize env remote integration input.useAuth
  let query := if input.params.isEmpty then "" else "?" ++ env.searchParams (input.params.filterMap fun entry => entry.2.map (entry.1,·))
  let finalUrl := url ++ query
  check (assertOutboundUrlSafe env.net finalUrl)
  match ← fetch env.net remote finalUrl with
  | .broken message => fail ⟨502,message⟩
  | .response status _ text =>
    let responseData := readBody env text
    if status < 200 || 299 < status then
      if status = 401 then keepToken integration.id none
      fail ⟨status,failureMessage status responseData⟩
    else pure ⟨(integration.id,integration.slug,integration.name),finalUrl,responseData,
      match input.responsePath with
      | none => some responseData
      | some path => extractPath responseData path⟩
-- It answers with the failure of the request itself instead of throwing it.
def healthcheckIntegration (input : HealthcheckInput) : Service HealthResult := do
  let slug := truthy (input.slug.map jsTrim)
  let found := env.integrations.find? fun integration => !integration.isDeleted && match input.id with
    | some id => integration.id == id
    | none => slug == some integration.slug
  match found with
  | none => fail (notFound "integration not found")
  | some integration => do
    let url ← check (buildExternalUrl integration.apiUrl (some (input.endpoint.getD "/")))
    let _ ← authorize env remote integration input.useAuth
    check (assertOutboundUrlSafe env.net url)
    match ← fetch env.net remote url with
    | .broken _ => pure ⟨false,502,url⟩
    | .response status _ _ => pure ⟨200 ≤ status && status ≤ 299,status,url⟩

end Requests

end Elchi.Outbound
