import Elchi.OutboundRequests
namespace Elchi.Integrations
open Webhooks (Json Fields truthy)
open Credentials (Cipher Keyring Iv encryptCredential)
open Outbound (Net jsString assertOutboundUrlSafe)

-- The columns of a row, or the properties of a request: an absent one is undefined.
abbrev Record := String → Option Json
def Record.of (entries : List (String × Json)) : Record := fun key => (entries.find? fun entry => entry.1 == key).map (·.2)
def Record.assign (row dto : Record) : Record := fun key => (dto key).or (row key)
def Record.set (row : Record) (key : String) (value : Json) : Record := fun other => if other = key then some value else row other
def setField (fields : Fields) (key : String) (value : Json) : Fields :=
  if fields.any (·.1 == key) then fields.map fun field => if field.1 = key then (key,value) else field
  else fields ++ [(key,value)]

-- `??`, the truth of a value, and what typeof calls an object.
def present (value : Option Json) : Option Json := value.filter fun
  | .null => false
  | _ => true
def truth : Json → Bool
  | .null => false
  | .bool value => value
  | .num shown => shown != "0" && shown != "NaN"
  | .str text => !text.isEmpty
  | _ => true
def fieldsOf : Json → Option Fields
  | .obj fields => some fields
  | .arr items => some (items.zipIdx.map fun item => (toString item.2,item.1))
  | _ => none
def text (value : Option Json) : String := ((present value).map jsString).getD ""

structure Env (K : Type) where
  net : Net
  cipher : Cipher K
  keys : Keyring K
  lower : String → String
  serializedLength : Json → Nat
  slugTaken : String → Bool

section Checks
variable {K : Type} (env : Env K)

def maxConfigBytes : Nat := 64*1024
def maxConfigDepth : Nat := 16
mutual
def jsonDepth (depth : Nat) : Json → Nat
  | .arr items => if maxConfigDepth < depth then depth else jsonDepths depth depth items
  | .obj fields => if maxConfigDepth < depth then depth else fieldDepths depth depth fields
  | _ => depth
def jsonDepths (depth deepest : Nat) : List Json → Nat
  | [] => deepest
  | item :: rest => jsonDepths depth (max deepest (jsonDepth (depth+1) item)) rest
def fieldDepths (depth deepest : Nat) : List (String × Json) → Nat
  | [] => deepest
  | (_,value) :: rest => fieldDepths depth (max deepest (jsonDepth (depth+1) value)) rest
end
def assertSafeJsonConfig (value : Json) (field : String) : Except RpcError Unit :=
  match value with
  | .null => .ok ()
  | value =>
    if maxConfigBytes < env.serializedLength value then .error (badRequest s!"{field} is too large (max {maxConfigBytes} bytes)")
    else if maxConfigDepth < jsonDepth 0 value then .error (badRequest s!"{field} is nested too deeply (max {maxConfigDepth})")
    else .ok ()
def configFields : List String :=
  ["credentials","field_mapping","status_mapping","status_sync_config","dispatch_config","inbound_status_mapping","webhook_payload_paths"]
def assertSafeConfigFields (dto : Record) : Except RpcError Unit :=
  configFields.forM fun field => match dto field with
    | none => .ok ()
    | some value => assertSafeJsonConfig env value field

def assertUrl (value : Option Json) : Except RpcError Unit :=
  if value.any truth then assertOutboundUrlSafe env.net (text value) else .ok ()

def slugChar (c : Char) : Bool := 'a' ≤ c ∧ c ≤ 'z' ∨ '0' ≤ c ∧ c ≤ '9'
def dashed : List Char → List Char
  | [] => []
  | c :: rest => if slugChar c then c :: dashed rest else match dashed rest with
    | '-' :: more => '-' :: more
    | more => '-' :: more
def slugify (value : String) : String :=
  String.ofList ((((dashed (jsTrim (env.lower value)).toList).dropWhile (· == '-')).reverse.dropWhile (· == '-')).reverse)
def normalizeStatus (value : Option Json) : String :=
  if env.lower (((present value).map jsString).getD "active") = "inactive" then "inactive" else "active"
def normalizeType (value : Option Json) : String :=
  let normalized := env.lower (((present value).map jsString).getD "api")
  if normalized = "webhook" ∨ normalized = "ftp" then normalized else "api"

end Checks

-- The credentials, each under an iv of its own, which is drawn for the place it is encrypted at.
section Secrets
variable {K : Type} (env : Env K) (draw : String → Iv)

def encryptKeys : List String := ["api_key","api_secret","password","token","access_token"]
def thrown : RpcError := ⟨500,"Internal server error"⟩
-- startsWith throws on what is not a string.
def encryptField (place : String) (value : Option Json) : Except RpcError Json :=
  match value with
  | some (.str text) => .ok (((encryptCredential env.cipher env.keys (draw place) (some text)).map Json.str).getD .null)
  | some value => if truth value then .error thrown else .ok .null
  | none => .ok .null
def storedField (field : String × Json) : String × Json :=
  if encryptKeys.contains field.1 then match field.2 with
    | .str text => (field.1,(((encryptCredential env.cipher env.keys (draw ("credentials." ++ field.1)) (some text)).map Json.str).getD (.str text)))
    | _ => field
  else field
def normalizeCredentialsForStorage (value : Option Json) : Json :=
  ((value.bind fieldsOf).map fun fields => Json.obj (fields.map (storedField env draw))).getD .null

-- What createIntegration takes from the request or from the credentials in it.
def credentialsOf (dto : Record) : Fields := ((dto "credentials").bind fieldsOf).getD []
def either (dto : Record) (key : String) : Json := ((present (dto key)).or (present (Json.get key (.obj (credentialsOf dto))))).getD .null
def createAuthType (dto : Record) : String :=
  if env.lower (jsString (((present (dto "auth_type")).or (present (Json.get "auth_type" (.obj (credentialsOf dto))))).getD
    (.str (if (Json.get "api_key" (.obj (credentialsOf dto))).any truth then "api_key" else "login")))) = "login" then "login" else "api_key"
def mergedCredentials (dto : Record) : Fields :=
  setField (["api_key","api_secret","username","password","auth_url"].foldl
    (fun fields key => if truth (either dto key) then setField fields key (either dto key) else fields) (credentialsOf dto))
    "auth_type" (.str (createAuthType env dto))
def createIntegration (dto : Record) : Except RpcError Record :=
  let name := jsTrim (text (dto "name"))
  let slug := jsTrim (((present (dto "slug")).map jsString).getD (slugify env name))
  let baseUrl := jsTrim (text ((present (dto "base_url")).or (dto "api_url")))
  let status := normalizeStatus env ((present (dto "status")).or (some (.str (match dto "is_active" with
    | some (.bool false) => "inactive"
    | _ => "active"))))
  if slug.isEmpty then .error (badRequest "slug is required")
  else if env.slugTaken slug then .error (badRequest "integration slug already exists")
  else if baseUrl.isEmpty then .error (badRequest "base_url is required")
  else do
    assertOutboundUrlSafe env.net baseUrl
    assertUrl env (some (either dto "auth_url"))
    assertSafeConfigFields env dto
    let apiKey ← encryptField env draw "api_key" (some (either dto "api_key"))
    let apiSecret ← encryptField env draw "api_secret" (some (either dto "api_secret"))
    let password ← encryptField env draw "password" (some (either dto "password"))
    .ok (Record.of [("name",.str (if name.isEmpty then slug else name)),("slug",.str slug),("type",.str (normalizeType env (dto "type"))),
      ("base_url",.str baseUrl),("credentials",normalizeCredentialsForStorage env draw (some (.obj (mergedCredentials env dto)))),
      ("status",.str status),("api_url",.str baseUrl),("api_key",apiKey),("api_secret",apiSecret),("auth_type",.str (createAuthType env dto)),
      ("auth_url",either dto "auth_url"),("username",either dto "username"),("password",password),("market_id",((present (dto "market_id")).getD .null)),
      ("is_active",.bool (status == "active")),("field_mapping",(present (dto "field_mapping")).getD .null),
      ("status_mapping",(present (dto "status_mapping")).getD .null),("status_sync_config",(present (dto "status_sync_config")).getD .null),
      ("last_sync_at",.null),("total_synced_orders",.num "0")])

-- The statements of updateIntegration after Object.assign, in its order.
def withType (dto : Record) (row : Record) : Record :=
  match dto "type" with
  | some value => row.set "type" (.str (normalizeType env (some value)))
  | none => row
def withAuthType (dto : Record) (row : Record) : Record :=
  match dto "auth_type" with
  | some (.str "login") => row.set "auth_type" (.str "login")
  | some _ => row.set "auth_type" (.str "api_key")
  | none => row
def withUrl (dto : Record) (row : Record) : Except RpcError Record :=
  match dto "base_url",dto "api_url" with
  | some url,_ =>
    let baseUrl := jsTrim (text (some url))
    if baseUrl.isEmpty then .error (badRequest "base_url cannot be empty")
    else .ok ((row.set "base_url" (.str baseUrl)).set "api_url" (.str baseUrl))
  | none,some url =>
    let apiUrl := jsTrim (text (some url))
    if apiUrl.isEmpty then .error (badRequest "api_url cannot be empty")
    else .ok ((row.set "api_url" (.str apiUrl)).set "base_url" (.str apiUrl))
  | none,none => .ok row
def withStatus (dto : Record) (row : Record) : Record :=
  match dto "status",dto "is_active" with
  | some status,_ =>
    (row.set "status" (.str (normalizeStatus env (some status)))).set "is_active" (.bool (normalizeStatus env (some status) == "active"))
  | none,some active => (row.set "status" (.str (if truth active then "active" else "inactive"))).set "is_active" (.bool (truth active))
  | none,none => row
def givenText (credentialsInput : Fields) (key : String) : Option String :=
  match Json.get key (.obj credentialsInput) with
  | some (.str text) => some text
  | _ => none
def copyGiven (credentialsInput : Fields) (key : String) (row : Record) : Record :=
  match givenText credentialsInput key with
  | some text => row.set key (.str text)
  | none => row
def encryptGiven (credentialsInput : Fields) (key : String) (row : Record) : Except RpcError Record :=
  match givenText credentialsInput key with
  | some text => do
    let stored ← encryptField env draw ("credentials:" ++ key) (some (.str text))
    .ok (row.set key stored)
  | none => .ok row
def fromCredentials (credentialsInput : Fields) (row : Record) : Except RpcError Record := do
  let row := match givenText credentialsInput "auth_type" with
    | some text => row.set "auth_type" (.str (if text = "login" then "login" else "api_key"))
    | none => row
  let row ← encryptGiven env draw credentialsInput "api_key" row
  let row ← encryptGiven env draw credentialsInput "api_secret" row
  let row ← encryptGiven env draw credentialsInput "password" (copyGiven credentialsInput "username" row)
  .ok (copyGiven credentialsInput "auth_url" row)
def withCredentials (dto : Record) (row : Record) : Except RpcError Record :=
  match dto "credentials" with
  | none => .ok row
  | some value =>
    let row := row.set "credentials" (normalizeCredentialsForStorage env draw (some value))
    match fieldsOf value with
    | none => .ok row
    | some fields => fromCredentials env draw fields row
def withSecret (dto : Record) (key : String) (row : Record) : Except RpcError Record :=
  match dto key with
  | none => .ok row
  | some value => do
    let stored ← encryptField env draw key (some value)
    .ok (row.set key stored)
def updateIntegration (stored : Option Record) (dto : Record) : Except RpcError Record :=
  match stored with
  | none => .error (notFound "integration not found")
  | some row =>
    let renamed := (dto "slug").any truth && text (dto "slug") != text (row "slug")
    if renamed && env.slugTaken (text (dto "slug")) then .error (badRequest "integration slug already exists")
    else do
      let row ← withUrl dto (withType env dto (row.assign dto))
      let row ← withCredentials env draw dto (withStatus env dto row)
      let row ← withSecret env draw dto "api_key" row
      let row ← withSecret env draw dto "api_secret" row
      let row ← withSecret env draw dto "password" row
      let row := withAuthType dto row
      assertUrl env (row "api_url")
      assertUrl env (row "auth_url")
      assertSafeConfigFields env dto
      .ok row

end Secrets

end Elchi.Integrations
